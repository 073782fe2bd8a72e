/-
A session of the client (`main.cpp`, `Network.cpp`).

`runClientMode` connects to a server, reads a line at a time and after every request waits for the response. Its
process starts no server of its own. Here the client is node 0 of a cluster of nodes with queues: its queue is the one
of node 0, and `pop` in `receiveAndPrintResponse` is where the loop of a node has its `pop`. The end of the input reads
as empty lines for ever. A call to a server that is not there fails, and the client goes on.

Results:
- `command_iff`: which lines ask for an abort, and of which transaction, and which lines end the process;
- `unanswered`: no request is ever answered, so a client makes one request at most.
-/
import HawkTxn.Clients
import HawkTxn.Core.Numerals
import HawkTxn.ServingCluster

namespace HawkTxn

open HawkTxn.Core
open DistributedDBNode (Event)

/-! ## Lines -/

/-- what the client makes of a line -/
inductive Command where
  | exit
  | collect
  | print
  | abort (transId : TransactionId)
  /-- `std::invalid_argument` was caught, and the usage printed -/
  | usage
  | unknown
  /-- `std::out_of_range`, which nothing catches -/
  | uncaught
deriving DecidableEq

def command (line : List UInt8) : Command :=
  if line = bytes "exit" then .exit
  else if line = bytes "collect" then .collect
  else if line = bytes "print" then .print
  else if line.take 5 = bytes "abort" then
    -- `substr(6)` throws when the line is no longer than the word
    if line.length < 6 then .uncaught
    else match stoi (line.drop 6) with
      | .ok transId => .abort transId
      | .error .invalid_argument => .usage
      | .error .out_of_range => .uncaught
  else .unknown

theorem command_abort {b : UInt8} {text : List UInt8} : command (bytes "abort" ++ b :: text) =
    match stoi text with
    | .ok transId => .abort transId
    | .error .invalid_argument => .usage
    | .error .out_of_range => .uncaught := by
  have habort : bytes "abort" = [97, 98, 111, 114, 116] := rfl
  have hothers : bytes "exit" = [101, 120, 105, 116] ∧ bytes "collect" = [99, 111, 108, 108, 101, 99, 116] ∧
      bytes "print" = [112, 114, 105, 110, 116] := ⟨rfl, rfl, rfl⟩
  simp [command, habort, hothers]

/-- a line that is read as an abort, or whose number is looked at, has a byte between the word and the number -/
theorem command_of_not_abort {line : List UInt8} (h : ∀ b text, line ≠ bytes "abort" ++ b :: text) :
    (∀ transId, command line ≠ .abort transId) ∧ (command line = .uncaught ↔ line = bytes "abort") := by
  have hword : line.take 5 = bytes "abort" → line = bytes "abort" := by
    intro htake
    have hsplit : line = bytes "abort" ++ line.drop 5 := by rw [← htake, List.take_append_drop]
    cases hdrop : line.drop 5 with
    | nil => rw [hsplit, hdrop, List.append_nil]
    | cons b text => exact absurd (hsplit.trans (by rw [hdrop])) (h b text)
  by_cases habort : line = bytes "abort"
  · subst habort
    have hends : command (bytes "abort") = .uncaught := by decide
    rw [hends]
    simp
  · have hnot : line.take 5 ≠ bytes "abort" := fun htake => habort (hword htake)
    unfold command
    refine ⟨fun transId => ?_, ?_⟩
    · split_ifs <;> simp
    · simp only [habort, iff_false]
      split_ifs <;> simp

/-- **Lines.** A line asks for an abort of t exactly when one byte of any kind follows the word and then a numeral
for t that fits in 32 bits; the line of the word alone, and a number that does not fit, end the process. -/
theorem command_iff (line : List UInt8) :
    (∀ t, command line = .abort t ↔ ∃ b text, line = bytes "abort" ++ b :: text ∧ Denotes text t ∧
      -2 ^ 31 ≤ t ∧ t < 2 ^ 31) ∧
    (command line = .uncaught ↔ line = bytes "abort" ∨ ∃ b text t, line = bytes "abort" ++ b :: text ∧
      Denotes text t ∧ ¬ (-2 ^ 31 ≤ t ∧ t < 2 ^ 31)) := by
  by_cases hline : ∃ b text, line = bytes "abort" ++ b :: text
  · obtain ⟨b, text, rfl⟩ := hline
    rw [command_abort]
    refine ⟨?_, ?_⟩
    · intro t
      calc _ ↔ stoi text = .ok t := by
            cases stoi text with
            | ok t' => simp
            | error e => cases e <;> simp
        _ ↔ Denotes text t ∧ -2 ^ 31 ≤ t ∧ t < 2 ^ 31 := stoi_eq_ok_iff
        _ ↔ _ := by simp
    · calc _ ↔ stoi text = .error .out_of_range := by
            cases stoi text with
            | ok t' => simp
            | error e => cases e <;> simp
        _ ↔ ∃ t, Denotes text t ∧ ¬ (-2 ^ 31 ≤ t ∧ t < 2 ^ 31) := stoi_eq_error_iff
        _ ↔ _ := by simp
  · have hnot : ∀ b text, line ≠ bytes "abort" ++ b :: text := fun b text h => hline ⟨b, text, h⟩
    obtain ⟨habort, huncaught⟩ := command_of_not_abort hnot
    refine ⟨fun t => iff_of_false (habort t) ?_, ?_⟩
    · rintro ⟨b, text, h, -⟩
      exact hnot b text h
    · rw [huncaught]
      refine (or_iff_left ?_).symm
      rintro ⟨b, text, t, h, -⟩
      exact hnot b text h

/-- a sign of three bytes before the number is not skipped -/
example : command (bytes "abort" ++ [0xE2, 0x82, 0xAC] ++ bytes "5") = .usage := by decide

/-- a request that is written out is read -/
theorem command_toString {t : TransactionId} (hlow : -2 ^ 31 ≤ t) (hhigh : t < 2 ^ 31) :
    command (bytes "abort " ++ bytes (toString t)) = .abort t := by
  have hread : stoi (bytes (toString t) ++ []) = .ok t := stoi_toString hlow hhigh (by simp)
  rw [List.append_nil] at hread
  have hline : bytes "abort " ++ bytes (toString t) = bytes "abort" ++ ' '.toUInt8 :: bytes (toString t) := rfl
  rw [hline, command_abort, hread]

/-! ## Model -/

inductive ClientPhase where
  /-- before `connectToServer` -/
  | starting
  /-- in the loop of `runClientMode` -/
  | connected
  | ended
  /-- by an exception -/
  | terminated
deriving DecidableEq

structure ClientSession where
  /-- node 0 is the client -/
  cluster : ServingCluster
  network : Network
  phase : ClientPhase
  /-- that the client has made -/
  calls : List HawkTxn.Delivery
  /-- how often the client has gone to wait for a response -/
  asked : ℕ

namespace ClientSession

def init (numNodes now : ℤ) : ClientSession := ⟨.init numNodes now, .init 0 numNodes true, .starting, [], 0⟩

/-- a call, if one is made, is served if its target is a node -/
def call (s : ClientSession) (E : Env) (d : Option HawkTxn.Delivery) : ClientSession :=
  let served := d.filter fun d => d.target ∈ intRange 1 s.cluster.numNodes
  { s with
    cluster := s.cluster.deliver (served.bind (Network.serve .listed E.raw)).toList
    calls := s.calls ++ d.toList }

/-- a message is sent, and `receiveAndPrintResponse` goes to its `pop` -/
def ask (s : ClientSession) (E : Env) (msg : NetworkMessage) : Option ClientSession :=
  let s := s.call E (s.network.sendMessage E.hash msg)
  (s.cluster.serve 0 .enterLoop).map fun cluster => { s with cluster := cluster, asked := s.asked + 1 }

inductive Act : Type 1 where
  /-- of the nodes, and of other clients -/
  | cluster (a : ServingCluster.Act)
  | connectToServer (E : Env) (serverNodeId : NodeId)
  | line (E : Env) (line : List UInt8)
  /-- the client, woken in `pop`, gets the mutex back -/
  | resume
  | wakeSpuriously
  /-- the response has been printed -/
  | printed

/-- an act that node 0 has no part in -/
def Elsewhere : ServingCluster.Act → Prop
  | .round n _ => n ≠ 0
  | .enterLoop n => n ≠ 0
  | .resume n => n ≠ 0
  | .wakeSpuriously n => n ≠ 0
  | .handle _ n => n ≠ 0
  | .clientRequest _ server _ => server ≠ 0
  | .stop n => n ≠ 0

instance : DecidablePred Elsewhere := fun a => by cases a <;> exact inferInstanceAs (Decidable (_ ≠ _))

/-- an act of the thread of the client in `receiveAndPrintResponse` -/
def receiving (s : ClientSession) (b : MessageServer.Act NetworkMessage) : Option ClientSession :=
  (s.cluster.serve 0 b).map fun cluster => { s with cluster := cluster }

def step (s : ClientSession) : Act → Option ClientSession
  | .cluster a => if Elsewhere a then (s.cluster.step a).map fun cluster => { s with cluster := cluster } else none
  | .connectToServer E serverNodeId =>
    if s.phase = .starting then
      (s.network.connectToServer serverNodeId).map fun res =>
        { s.call E (some res.2) with network := res.1, phase := .connected }
    else none
  | .line E line =>
    match s.phase, (s.cluster.server 0).loop with
    | .connected, .top =>
      match command line with
      | .exit => some { s with phase := .ended }
      | .collect => s.ask E (Network.collectCommand E.raw centralizedNodeId)
      | .print => s.ask E (Network.printCommand E.raw)
      | .abort transId => s.ask E (Network.abortCommand E.raw transId)
      | .usage | .unknown => some s
      | .uncaught => some { s with phase := .terminated }
    | _, _ => none
  | .resume => s.receiving .resume
  | .wakeSpuriously => s.receiving .wakeSpuriously
  | .printed => s.receiving .finish

/-! ## What reaches the client -/

variable {s s' : ClientSession} {c c' : ServingCluster} {numNodes now : ℤ} {n : NodeId}

/-- the only calls that `sendMessage` makes for a client ask its server for an abort -/
theorem call_of_sendMessage {H : HashOrder} {net : Network} {msg : NetworkMessage} {d : HawkTxn.Delivery}
    (hclient : net.isClient = true) (h : net.sendMessage H msg = some d) :
    net.clientToServerStub = some d.target ∧ d.rpc = .sendClientResolveDeadlockRequest := by
  unfold Network.sendMessage at h
  rw [hclient] at h
  simp only [Bool.true_eq_false, and_false, if_false, if_true] at h
  obtain ⟨stub, hstub, h⟩ := Option.bind_eq_some_iff.1 h
  obtain ⟨rpc, hrpc, h⟩ := Option.bind_eq_some_iff.1 h
  cases h
  refine ⟨hstub, ?_⟩
  rw [Delivery.convertToProtoMessage_type] at hrpc
  -- the encoder has no case for the other requests of a client
  cases htype : msg.type <;> rw [htype] at hrpc <;> cases hrpc
  rfl

/-- nothing a node pushes is pushed onto the queue of node 0, unless it is node 0 itself -/
theorem target_ne_zero {nd : DistributedDBNode} {E : Env} {effects : List Effect} (hid : nd.nodeId ≠ 0) :
    ∀ p ∈ effects.flatMap (Cluster.pushes E nd), p.1 ≠ 0 := by
  intro p hp
  have hrange : ∀ numNodes : ℤ, p.1 ∈ intRange 1 numNodes → p.1 ≠ 0 :=
    fun _ hmem => (zero_lt_one.trans_le (mem_intRange.1 hmem).1).ne'
  obtain ⟨effect, -, hp⟩ := List.mem_flatMap.1 hp
  cases effect with
  | send msg => exact hrange _ (Network.mem_pushed_connected hp).2.1
  | broadcastTreeAdjustment zones leaders => exact hrange _ (Network.mem_broadcastTreeAdjustment.1 hp).1
  | pushLocal msg =>
    rw [List.mem_singleton.1 hp]
    exact hid

theorem server_zero_deliver {l : List (NodeId × NetworkMessage)} (hl : ∀ p ∈ l, p.1 ≠ 0) :
    (c.deliver l).server 0 = c.server 0 := by
  have hnone : ServingCluster.addressedTo 0 l = [] :=
    List.filterMap_eq_nil_iff.2 fun p hp => if_neg (hl p hp)
  simp only [ServingCluster.deliver, hnone, List.foldl_nil]

theorem server_zero_serve {b : MessageServer.Act NetworkMessage} (hn : n ≠ 0) (h : c.serve n b = some c') :
    c'.nodes = c.nodes ∧ c'.server 0 = c.server 0 := by
  obtain ⟨-, hnodes, server, -, hupdate⟩ := ServingCluster.serve_cases h
  exact ⟨hnodes, by rw [hupdate, Function.update_of_ne hn.symm]⟩

/-- every node still knows its id after the outcome of an event, and the queue of node 0 is as it was -/
theorem after_elsewhere {ev : Event} {o : Outcome} {E : Env} (hids : ∀ n, (c.nodes n).nodeId = n) (hn : n ≠ 0)
    (ho : (c.nodes n).step ev = some o) :
    (∀ k, ((c.after E n o).nodes k).nodeId = k) ∧ (c.after E n o).server 0 = c.server 0 := by
  refine ⟨?_, server_zero_deliver (target_ne_zero (by rw [hids]; exact hn))⟩
  intro k
  by_cases hk : k = n
  · subst hk
    calc ((c.after E k o).nodes k).nodeId = o.node.nodeId := by simp [ServingCluster.after, ServingCluster.deliver]
      _ = (c.nodes k).nodeId := (DistributedDBNode.step_sameNode ho).nodeId
      _ = k := hids k
  · calc ((c.after E n o).nodes k).nodeId = (c.nodes k).nodeId := by
          simp [ServingCluster.after, ServingCluster.deliver, Function.update_of_ne hk]
      _ = k := hids k

theorem step_elsewhere {a : ServingCluster.Act} (ha : Elsewhere a) (hids : ∀ n, (c.nodes n).nodeId = n)
    (h : c.step a = some c') : (∀ n, (c'.nodes n).nodeId = n) ∧ c'.server 0 = c.server 0 := by
  have hserve : ∀ {k : NodeId} {b : MessageServer.Act NetworkMessage}, k ≠ 0 → c.serve k b = some c' →
      (∀ n, (c'.nodes n).nodeId = n) ∧ c'.server 0 = c.server 0 := by
    intro k b hk hst
    obtain ⟨hnodes, hzero⟩ := server_zero_serve hk hst
    exact ⟨by rw [hnodes]; exact hids, hzero⟩
  cases a with
  | round k ev =>
    simp only [ServingCluster.step] at h
    split_ifs at h
    obtain ⟨o, ho, rfl⟩ := Option.map_eq_some_iff.1 h
    exact after_elsewhere hids ha ho
  | enterLoop k => exact hserve ha h
  | resume k => exact hserve ha h
  | wakeSpuriously k => exact hserve ha h
  | handle E k =>
    simp only [ServingCluster.step] at h
    split at h
    · obtain ⟨o, ho, h⟩ := Option.bind_eq_some_iff.1 h
      obtain ⟨t, ht, rfl⟩ := Option.map_eq_some_iff.1 h
      obtain ⟨hnodes, hzero⟩ := server_zero_serve ha ht
      obtain ⟨hids', hzero'⟩ := after_elsewhere (c := t) (E := E) (by rw [hnodes]; exact hids) ha
        (by rw [hnodes]; exact ho)
      exact ⟨hids', hzero'.trans hzero⟩
    · cases h
  | clientRequest E server msg =>
    cases h
    refine ⟨hids, server_zero_deliver ?_⟩
    intro p hp
    obtain ⟨d, hd, hserve⟩ := Option.bind_eq_some_iff.1 (Option.mem_toList.1 hp)
    cases hserve
    have htarget : server = d.target := Option.some.inj (call_of_sendMessage rfl hd).1
    have hserver : d.target ≠ 0 := htarget ▸ ha
    exact hserver
  | stop k => exact hserve ha h

/-! ## The client waits for ever -/

/-- where the client is, what it has asked for and which calls it has made -/
inductive At (s : ClientSession) : Prop where
  | starting (phase : s.phase = .starting) (loop : (s.cluster.server 0).loop = .top) (asked : s.asked = 0)
      (calls : s.calls = [])
  | prompt (phase : s.phase ≠ .starting) (loop : (s.cluster.server 0).loop = .top) (asked : s.asked = 0)
      (calls : s.calls.map (·.rpc) = [.sendClientPrintDeadlockRequest])
  | waiting (phase : s.phase = .connected) (loop : (s.cluster.server 0).loop = .inPop) (asked : s.asked = 1)
      (calls : s.calls.map (·.rpc) <+: [.sendClientPrintDeadlockRequest, .sendClientResolveDeadlockRequest])

structure Inv (s : ClientSession) : Prop where
  ids : ∀ n, (s.cluster.nodes n).nodeId = n
  server : (s.cluster.server 0).Inv
  pushed : (s.cluster.server 0).pushed = []
  running : (s.cluster.server 0).systemRunning = true
  isClient : s.network.isClient = true
  place : At s

theorem inv_init (numNodes now : ℤ) : Inv (init numNodes now) where
  ids _ := rfl
  server := MessageServer.inv_init
  pushed := rfl
  running := rfl
  isClient := rfl
  place := .starting rfl rfl rfl rfl

/-- the queue of the client is empty, and it has no response in hand -/
theorem Inv.nothing (h : s.Inv) : (s.cluster.server 0).loop.inHand = [] ∧ (s.cluster.server 0).queue.queue_ = [] := by
  have horder := h.server.order
  rw [h.pushed] at horder
  simp only [List.append_eq_nil_iff] at horder
  exact ⟨horder.1.2, horder.2⟩

/-- to read the condition of `pop` at an empty queue is to wait -/
theorem popping_of_empty {server : MessageServer NetworkMessage} (hqueue : server.queue.queue_ = [])
    (hrunning : server.systemRunning = true) :
    server.popping.loop = .inPop ∧ server.popping.pushed = server.pushed ∧ server.popping.systemRunning = true := by
  rcases SafeQueue.pop_cases server.queue server.systemRunning () with ⟨-, -, hpop⟩ | ⟨-, hstopped, -⟩ |
    ⟨msg, rest, hmsg, -⟩
  · unfold MessageServer.popping
    rw [hpop]
    exact ⟨rfl, rfl, hrunning⟩
  · rw [hrunning] at hstopped
    cases hstopped
  · rw [hqueue] at hmsg
    cases hmsg

/-- an act of the thread of the client on its queue -/
theorem receiving_cases {b : MessageServer.Act NetworkMessage} (h : s.receiving b = some s') :
    ∃ server, (s.cluster.server 0).step b = some server ∧ s'.cluster.server 0 = server ∧
      s'.cluster.nodes = s.cluster.nodes ∧ s'.network = s.network ∧ s'.phase = s.phase ∧ s'.calls = s.calls ∧
      s'.asked = s.asked := by
  obtain ⟨c, hc, rfl⟩ := Option.map_eq_some_iff.1 h
  obtain ⟨-, hnodes, server, hserver, hupdate⟩ := ServingCluster.serve_cases hc
  exact ⟨server, hserver, by rw [hupdate, Function.update_self], hnodes, rfl, rfl, rfl, rfl⟩

/-- a client that is woken goes back to wait -/
theorem Inv.receiving {b : MessageServer.Act NetworkMessage} (h : s.Inv)
    (hb : b = .resume ∨ b = .wakeSpuriously ∨ b = .finish) (hst : s.receiving b = some s') :
    Inv s' ∧ s'.asked = s.asked ∧ s'.calls = s.calls := by
  obtain ⟨server, hserver, hzero, hnodes, hnetwork, hphase, hcalls, hasked⟩ := receiving_cases hst
  have hnext : server.Inv := MessageServer.step_inv h.server hserver
  obtain ⟨hhand, hqueue⟩ := h.nothing
  have hkept : (s.cluster.server 0).loop = .inPop ∧ server.loop = .inPop ∧
      server.pushed = (s.cluster.server 0).pushed ∧ server.systemRunning = true := by
    rcases hb with rfl | rfl | rfl
    · simp only [MessageServer.step] at hserver
      split_ifs at hserver with hwoken
      cases hserver
      have hloop := h.server.loop_of_mem (List.mem_append_right _ hwoken)
      exact ⟨hloop, popping_of_empty hqueue h.running⟩
    · simp only [MessageServer.step] at hserver
      split_ifs at hserver with hwaits
      cases hserver
      have hloop := h.server.loop_of_mem (List.mem_append_left _ hwaits)
      exact ⟨hloop, hloop, rfl, h.running⟩
    · simp only [MessageServer.step] at hserver
      split at hserver
      · rename_i msg hloop
        rw [hloop] at hhand
        cases hhand
      · cases hserver
  obtain ⟨hwas, hloop, hpushed, hrunning⟩ := hkept
  refine ⟨⟨by rw [hnodes]; exact h.ids, by rw [hzero]; exact hnext, by rw [hzero, hpushed, h.pushed],
    by rw [hzero]; exact hrunning, by rw [hnetwork]; exact h.isClient, ?_⟩, hasked, hcalls⟩
  cases h.place with
  | waiting phase _ asked calls =>
    exact .waiting (hphase.trans phase) (by rw [hzero]; exact hloop) (hasked.trans asked) (by rw [hcalls]; exact calls)
  | starting _ loop => rw [hwas] at loop; cases loop
  | prompt _ loop => rw [hwas] at loop; cases loop

/-- a call goes to nodes only -/
theorem call_kept (s : ClientSession) (E : Env) (d : Option HawkTxn.Delivery) :
    (s.call E d).cluster.nodes = s.cluster.nodes ∧ (s.call E d).cluster.server 0 = s.cluster.server 0 := by
  refine ⟨rfl, server_zero_deliver ?_⟩
  intro p hp
  obtain ⟨d', hd', hserve⟩ := Option.bind_eq_some_iff.1 (Option.mem_toList.1 hp)
  cases hserve
  obtain ⟨-, hrange⟩ := Option.filter_eq_some_iff.1 hd'
  have hpos := (mem_intRange.1 (of_decide_eq_true hrange)).1
  exact (zero_lt_one.trans_le hpos).ne'

/-- a client at its prompt asks, and waits -/
theorem Inv.ask {E : Env} {msg : NetworkMessage} (h : s.Inv) (hphase : s.phase = .connected)
    (hst : s.ask E msg = some s') : Inv s' ∧ s.asked = 0 := by
  obtain ⟨hcallNodes, hcallZero⟩ := call_kept s E (s.network.sendMessage E.hash msg)
  obtain ⟨c, hc, rfl⟩ := Option.map_eq_some_iff.1 hst
  obtain ⟨-, hnodes, server, hserver, hupdate⟩ := ServingCluster.serve_cases hc
  have hzero : c.server 0 = server := by rw [hupdate, Function.update_self]
  rw [hcallZero] at hserver
  have hnext : server.Inv := MessageServer.step_inv h.server hserver
  simp only [MessageServer.step] at hserver
  split at hserver
  · rename_i htop
    rw [if_pos h.running] at hserver
    cases hserver
    obtain ⟨hloop, hpushed, hrunning⟩ := popping_of_empty h.nothing.2 h.running
    cases h.place with
    | starting phase => rw [hphase] at phase; cases phase
    | waiting _ loop => rw [htop] at loop; cases loop
    | prompt phase loop asked calls =>
      refine ⟨⟨by rw [hnodes, hcallNodes]; exact h.ids, by rw [hzero]; exact hnext,
        by rw [hzero, hpushed, h.pushed], by rw [hzero]; exact hrunning, h.isClient, ?_⟩, asked⟩
      refine .waiting hphase (by rw [hzero]; exact hloop) (by simp [ClientSession.call, asked]) ?_
      cases hd : s.network.sendMessage E.hash msg with
      | none => simp [ClientSession.call, calls]
      | some d => simp [ClientSession.call, calls, (call_of_sendMessage h.isClient hd).2]
  · cases hserver

theorem step_inv {a : Act} (h : s.Inv) (hst : s.step a = some s') :
    Inv s' ∧ (s.asked = 1 → s'.asked = 1 ∧ s'.calls = s.calls) := by
  cases a with
  | cluster a =>
    simp only [step] at hst
    split_ifs at hst with ha
    obtain ⟨c, hc, rfl⟩ := Option.map_eq_some_iff.1 hst
    obtain ⟨hids, hzero⟩ := step_elsewhere ha h.ids hc
    refine ⟨⟨hids, by rw [hzero]; exact h.server, by rw [hzero]; exact h.pushed, by rw [hzero]; exact h.running,
      h.isClient, ?_⟩, fun hasked => ⟨hasked, rfl⟩⟩
    cases h.place with
    | starting phase loop asked calls => exact .starting phase (by rw [hzero]; exact loop) asked calls
    | prompt phase loop asked calls => exact .prompt phase (by rw [hzero]; exact loop) asked calls
    | waiting phase loop asked calls => exact .waiting phase (by rw [hzero]; exact loop) asked calls
  | connectToServer E serverNodeId =>
    simp only [step] at hst
    split_ifs at hst with hphase
    obtain ⟨res, hres, rfl⟩ := Option.map_eq_some_iff.1 hst
    unfold Network.connectToServer at hres
    rw [if_pos h.isClient] at hres
    cases hres
    obtain ⟨hnodes, hzero⟩ := call_kept s E (some (Network.connectRequest serverNodeId))
    cases h.place with
    | starting phase loop asked calls =>
      refine ⟨⟨by rw [hnodes]; exact h.ids, by rw [hzero]; exact h.server, by rw [hzero]; exact h.pushed,
        by rw [hzero]; exact h.running, h.isClient, .prompt (by simp) (by rw [hzero]; exact loop) asked ?_⟩, ?_⟩
      · simp [call, calls, Network.connectRequest]
      · intro hasked
        rw [asked] at hasked
        cases hasked
    | prompt phase => exact absurd hphase phase
    | waiting phase => rw [hphase] at phase; cases phase
  | line E line =>
    simp only [step] at hst
    split at hst
    · rename_i hphase htop
      have hprompt : s.asked = 0 ∧ s.calls.map (·.rpc) = [.sendClientPrintDeadlockRequest] := by
        cases h.place with
        | starting phase => rw [hphase] at phase; cases phase
        | prompt _ _ asked calls => exact ⟨asked, calls⟩
        | waiting _ loop => rw [htop] at loop; cases loop
      have hasked : s.asked ≠ 1 := by rw [hprompt.1]; exact zero_ne_one
      refine ⟨?_, fun hone => absurd hone hasked⟩
      -- to leave the loop is not to start it
      have hleaves : ∀ phase, phase ≠ ClientPhase.starting → Inv { s with phase := phase } := fun phase hne =>
        ⟨h.ids, h.server, h.pushed, h.running, h.isClient, .prompt hne htop hprompt.1 hprompt.2⟩
      cases hcommand : command line <;> rw [hcommand] at hst
      case exit => cases hst; exact hleaves _ (by simp)
      case uncaught => cases hst; exact hleaves _ (by simp)
      case usage => cases hst; exact h
      case unknown => cases hst; exact h
      all_goals exact (h.ask hphase hst).1
    · cases hst
  | resume =>
    obtain ⟨hinv, hasked, hcalls⟩ := h.receiving (Or.inl rfl) hst
    exact ⟨hinv, fun hone => ⟨hasked.trans hone, hcalls⟩⟩
  | wakeSpuriously =>
    obtain ⟨hinv, hasked, hcalls⟩ := h.receiving (Or.inr (Or.inl rfl)) hst
    exact ⟨hinv, fun hone => ⟨hasked.trans hone, hcalls⟩⟩
  | printed =>
    obtain ⟨hinv, hasked, hcalls⟩ := h.receiving (Or.inr (Or.inr rfl)) hst
    exact ⟨hinv, fun hone => ⟨hasked.trans hone, hcalls⟩⟩

theorem inv_of_reaches (h : Reaches step (init numNodes now) s) : s.Inv :=
  h.invariant (inv_init numNodes now) fun _ _ _ hinv _ hst => (step_inv hinv hst).1

/-- **No answer.** In every run of a client and the nodes, whatever its user types: nothing is ever pushed onto the
queue of the client, and it makes the call of `connectToServer` and one request for an abort at most. Once it has asked
for anything it waits in `pop` for ever, however often it is woken, and no line is read any more. -/
theorem unanswered (h : Reaches step (init numNodes now) s) :
    (s.cluster.server 0).pushed = [] ∧
    s.calls.map (·.rpc) <+: [.sendClientPrintDeadlockRequest, .sendClientResolveDeadlockRequest] ∧
    s.asked ≤ 1 ∧
    (s.asked = 1 → ∀ s', Reaches step s s' → (s'.cluster.server 0).loop = .inPop ∧ s'.calls = s.calls) := by
  have hinv := inv_of_reaches h
  refine ⟨hinv.pushed, ?_, ?_, ?_⟩
  · cases hinv.place with
    | starting _ _ _ calls => simp [calls]
    | prompt _ _ _ calls => simp [calls]
    | waiting _ _ _ calls => exact calls
  · cases hinv.place with
    | starting _ _ asked => simp [asked]
    | prompt _ _ asked => simp [asked]
    | waiting _ _ asked => exact asked.le
  · intro hasked s' hrun
    have hlast : s'.Inv ∧ s'.asked = 1 ∧ s'.calls = s.calls := by
      refine hrun.invariant (P := fun t => t.Inv ∧ t.asked = 1 ∧ t.calls = s.calls) ⟨hinv, hasked, rfl⟩ ?_
      intro t a t' ht _ hst
      obtain ⟨hinv', hkept⟩ := step_inv ht.1 hst
      obtain ⟨hone, hcalls⟩ := hkept ht.2.1
      exact ⟨hinv', hone, hcalls.trans ht.2.2⟩
    obtain ⟨hinv', hone, hcalls⟩ := hlast
    refine ⟨?_, hcalls⟩
    cases hinv'.place with
    | starting _ _ asked => rw [hone] at asked; cases asked
    | prompt _ _ asked => rw [hone] at asked; cases asked
    | waiting _ loop => exact loop

/-- the client connects to node 1, mistypes a line and asks for the abort of transaction 7 -/
def typed : List Act :=
  [.connectToServer .quiet 1, .line .quiet (bytes "abor"), .line .quiet (bytes "abort 7")]

def waiting : ClientSession := (run step (init 2 0) typed).get rfl

theorem unanswered_waiting : waiting.asked = 1 ∧ (waiting.cluster.server 1).pushed.length = 2 ∧
    ∀ s', Reaches step waiting s' → (s'.cluster.server 0).loop = .inPop := by
  have hreached : Reaches step (init 2 0) waiting := .of_run (Option.some_get _).symm
  exact ⟨rfl, rfl, fun s' hrun => ((unanswered hreached).2.2.2 rfl s' hrun).1⟩

end ClientSession

end HawkTxn
