/-
Numerals in text, as the C++ library reads them.

`stoi` skips leading spaces, takes a sign if there is one and then as many decimal digits as there are, and ignores the
rest. It throws when there is no digit, and when the number is out of the range of its result. A line of text is the
list of its bytes, whatever they encode.

- `stoi_eq_ok_iff`, `stoi_eq_error_iff`: which texts are read, and as which number, by their form;
- `stoi_toString`: a number that is written is read back, whatever follows it.
-/
import Mathlib.Data.List.TakeWhile
import Mathlib.Tactic

namespace HawkTxn.Core

/-- of a text in ASCII -/
def bytes (text : String) : List UInt8 := text.toList.map Char.toUInt8

/-! ## Reading -/

/-- `std::isspace` in the C locale -/
def isspace (b : UInt8) : Bool := b.toNat = 32 || (9 ≤ b.toNat && b.toNat ≤ 13)

def isdigit (b : UInt8) : Bool := 48 ≤ b.toNat && b.toNat ≤ 57

def minus : UInt8 := '-'.toUInt8

def plus : UInt8 := '+'.toUInt8

/-- the number that decimal digits stand for -/
def ofDigits (digits : List UInt8) : ℕ := digits.foldl (fun n b => 10 * n + (b.toNat - 48)) 0

inductive StoiError where
  | invalid_argument
  | out_of_range
deriving DecidableEq

/-- what is left when the sign is taken -/
def unsigned (body : List UInt8) : List UInt8 :=
  if body.head? = some minus ∨ body.head? = some plus then body.tail else body

/-- `std::stoi` with a 32-bit result -/
def stoi (str : List UInt8) : Except StoiError ℤ :=
  let body := str.dropWhile isspace
  let digits := (unsigned body).takeWhile isdigit
  let magnitude : ℤ := ofDigits digits
  let value := if body.head? = some minus then -magnitude else magnitude
  if digits = [] then .error .invalid_argument
  else if -2 ^ 31 ≤ value ∧ value < 2 ^ 31 then .ok value
  else .error .out_of_range

/-! ## The form of a numeral -/

/-- spaces, a sign or none, and digits up to the first byte that is none; the rest does not matter -/
structure Numeral (str : List UInt8) (spaces sign digits rest : List UInt8) : Prop where
  split : str = spaces ++ (sign ++ (digits ++ rest))
  spaces : ∀ b ∈ spaces, isspace b = true
  sign : sign = [] ∨ sign = [minus] ∨ sign = [plus]
  digits : digits ≠ [] ∧ ∀ b ∈ digits, isdigit b = true
  rest : ∀ b ∈ rest.head?, isdigit b = false

/-- the number a sign and digits stand for -/
def numeralValue (sign digits : List UInt8) : ℤ := if sign = [minus] then -ofDigits digits else ofDigits digits

/-- the text starts with a numeral for the number -/
def Denotes (str : List UInt8) (value : ℤ) : Prop :=
  ∃ spaces sign digits rest, Numeral str spaces sign digits rest ∧ value = numeralValue sign digits

variable {str spaces sign digits rest : List UInt8} {value : ℤ} {b : UInt8}

theorem not_isspace_of_isdigit (h : isdigit b = true) : isspace b = false := by
  simp only [isdigit, Bool.and_eq_true, decide_eq_true_eq] at h
  simp only [isspace, Bool.or_eq_false_iff, decide_eq_false_iff_not, Bool.and_eq_false_iff]
  omega

theorem ne_sign_of_isdigit (h : isdigit b = true) : b ≠ minus ∧ b ≠ plus := by
  refine ⟨?_, ?_⟩ <;> rintro rfl <;> exact absurd h (by decide)

theorem takeWhile_isdigit (hdigits : ∀ b ∈ digits, isdigit b = true) (hrest : ∀ b ∈ rest.head?, isdigit b = false) :
    (digits ++ rest).takeWhile isdigit = digits := by
  rw [List.takeWhile_append_of_pos hdigits]
  cases rest with
  | nil => simp
  | cons b rest => simp [hrest b rfl]

/-- the first byte of a numeral is no space -/
theorem Numeral.dropWhile (h : Numeral str spaces sign digits rest) :
    str.dropWhile isspace = sign ++ (digits ++ rest) := by
  have hbody : ∀ body : List UInt8, (∀ b ∈ body.head?, isspace b = false) → body.dropWhile isspace = body := by
    intro body hbody
    cases body with
    | nil => rfl
    | cons b body => exact List.dropWhile_cons_of_neg (by simp [hbody b rfl])
  rw [h.split, List.dropWhile_append_of_pos h.spaces]
  apply hbody
  rcases h.sign with hsign | hsign | hsign
  · obtain ⟨hne, hall⟩ := h.digits
    obtain ⟨b, ds, hcons⟩ := List.exists_cons_of_ne_nil hne
    intro b' hb'
    rw [hsign, hcons] at hb'
    obtain rfl : b = b' := by simpa using hb'
    exact not_isspace_of_isdigit (hall b (by simp [hcons]))
  · rw [hsign]
    intro b hb
    obtain rfl : minus = b := by simpa using hb
    decide
  · rw [hsign]
    intro b hb
    obtain rfl : plus = b := by simpa using hb
    decide

/-- the sign is taken if there is one -/
theorem Numeral.unsigned (h : Numeral str spaces sign digits rest) :
    Core.unsigned (sign ++ (digits ++ rest)) = digits ++ rest ∧
      ((sign ++ (digits ++ rest)).head? = some minus ↔ sign = [minus]) := by
  rcases h.sign with rfl | rfl | rfl
  · obtain ⟨hne, hall⟩ := h.digits
    obtain ⟨b, ds, rfl⟩ := List.exists_cons_of_ne_nil hne
    obtain ⟨hminus, hplus⟩ := ne_sign_of_isdigit (hall b (by simp))
    simp [Core.unsigned, hminus, hplus]
  · simp [Core.unsigned]
  · simp [Core.unsigned]

/-- **Reading a numeral.** -/
theorem Numeral.stoi_eq (h : Numeral str spaces sign digits rest) :
    stoi str = if -2 ^ 31 ≤ numeralValue sign digits ∧ numeralValue sign digits < 2 ^ 31
      then .ok (numeralValue sign digits) else .error .out_of_range := by
  obtain ⟨hunsigned, hminus⟩ := h.unsigned
  unfold stoi
  simp only [h.dropWhile, hunsigned, takeWhile_isdigit h.digits.2 h.rest, h.digits.1, if_false, hminus]
  rfl

/-- a text whose digits are found has the form of a numeral -/
theorem numeral_of_digits (hdigits : (unsigned (str.dropWhile isspace)).takeWhile isdigit ≠ []) :
    ∃ spaces sign digits rest, Numeral str spaces sign digits rest := by
  have hunsigned : ∃ sign, (sign = [] ∨ sign = [minus] ∨ sign = [plus]) ∧
      str.dropWhile isspace = sign ++ unsigned (str.dropWhile isspace) := by
    unfold unsigned
    split_ifs with hsign
    · rcases hsign with hsign | hsign
      · exact ⟨[minus], by simp, List.eq_cons_of_mem_head? hsign⟩
      · exact ⟨[plus], by simp, List.eq_cons_of_mem_head? hsign⟩
    · exact ⟨[], by simp, rfl⟩
  obtain ⟨sign, hsign, hbody⟩ := hunsigned
  refine ⟨str.takeWhile isspace, sign, (unsigned (str.dropWhile isspace)).takeWhile isdigit,
    (unsigned (str.dropWhile isspace)).dropWhile isdigit, ?_, ?_, hsign, ⟨hdigits, ?_⟩, ?_⟩
  · rw [List.takeWhile_append_dropWhile, ← hbody, List.takeWhile_append_dropWhile]
  · exact fun b hb => List.mem_takeWhile_imp hb
  · exact fun b hb => List.mem_takeWhile_imp hb
  · intro b hb
    have hfirst := List.head?_dropWhile_not isdigit (unsigned (str.dropWhile isspace))
    rw [Option.mem_def.1 hb] at hfirst
    simpa using hfirst

/-- **What is read.** A number is read exactly from the texts that start with a numeral for it, if it fits. -/
theorem stoi_eq_ok_iff : stoi str = .ok value ↔ Denotes str value ∧ -2 ^ 31 ≤ value ∧ value < 2 ^ 31 := by
  refine ⟨?_, ?_⟩
  · intro h
    have hdigits : (unsigned (str.dropWhile isspace)).takeWhile isdigit ≠ [] := by
      intro hnone
      simp [stoi, hnone] at h
    obtain ⟨spaces, sign, digits, rest, hnum⟩ := numeral_of_digits hdigits
    rw [hnum.stoi_eq] at h
    split_ifs at h with hrange
    cases h
    exact ⟨⟨spaces, sign, digits, rest, hnum, rfl⟩, hrange⟩
  · intro h
    obtain ⟨⟨spaces, sign, digits, rest, hnum, rfl⟩, hrange⟩ := h
    rw [hnum.stoi_eq, if_pos hrange]

/-- **What is not read.** -/
theorem stoi_eq_error_iff {e : StoiError} : stoi str = .error e ↔
    match e with
    | .invalid_argument => ∀ value, ¬ Denotes str value
    | .out_of_range => ∃ value, Denotes str value ∧ ¬ (-2 ^ 31 ≤ value ∧ value < 2 ^ 31) := by
  by_cases hdigits : (unsigned (str.dropWhile isspace)).takeWhile isdigit = []
  · have hinvalid : stoi str = .error .invalid_argument := by simp [stoi, hdigits]
    have hnone : ∀ value, ¬ Denotes str value := by
      intro value hdenotes
      obtain ⟨spaces, sign, digits, rest, hnum, -⟩ := hdenotes
      have hread := hnum.stoi_eq
      rw [hinvalid] at hread
      split_ifs at hread
      cases hread
    cases e with
    | invalid_argument => exact iff_of_true hinvalid hnone
    | out_of_range =>
      refine iff_of_false (by rw [hinvalid]; simp) ?_
      rintro ⟨value, hdenotes, -⟩
      exact hnone value hdenotes
  · obtain ⟨spaces, sign, digits, rest, hnum⟩ := numeral_of_digits hdigits
    have hdenotes : Denotes str (numeralValue sign digits) := ⟨spaces, sign, digits, rest, hnum, rfl⟩
    cases e with
    | invalid_argument =>
      refine iff_of_false ?_ (fun h => h _ hdenotes)
      rw [hnum.stoi_eq]
      split_ifs <;> simp
    | out_of_range =>
      refine ⟨?_, ?_⟩
      · intro h
        rw [hnum.stoi_eq] at h
        split_ifs at h with hrange
        exact ⟨_, hdenotes, hrange⟩
      · intro h
        obtain ⟨value, ⟨spaces', sign', digits', rest', hnum', rfl⟩, hrange⟩ := h
        rw [hnum'.stoi_eq, if_neg hrange]

/-! ## Writing -/

/-- the byte of a digit is its character -/
theorem toNat_toUInt8 {c : Char} (h : c.isDigit = true) : c.toUInt8.toNat = c.toNat ∧ isdigit c.toUInt8 = true := by
  simp only [Char.isDigit, ge_iff_le, Bool.and_eq_true, decide_eq_true_eq] at h
  have hlow : 48 ≤ c.toNat := h.1
  have hhigh : c.toNat ≤ 57 := h.2
  have hbyte : c.toUInt8.toNat = c.toNat := by
    calc c.toUInt8.toNat = c.toNat % 2 ^ 8 := UInt32.toNat_toUInt8 c.val
      _ = c.toNat := Nat.mod_eq_of_lt (by omega)
  refine ⟨hbyte, ?_⟩
  simp [isdigit, hbyte, hlow, hhigh]

theorem ofDigits_map {text : List Char} (h : ∀ c ∈ text, c.isDigit = true) :
    ofDigits (text.map Char.toUInt8) = Nat.ofDigitChars 10 text 0 := by
  rw [ofDigits, Nat.ofDigitChars_eq_foldl, List.foldl_map]
  refine List.foldl_ext _ _ _ ?_
  intro n c hc
  rw [(toNat_toUInt8 (h c hc)).1]
  rfl

/-- a written number is digits, and they stand for it -/
theorem toDigits_bytes (n : ℕ) :
    ((Nat.toDigits 10 n).map Char.toUInt8 ≠ [] ∧ ∀ b ∈ (Nat.toDigits 10 n).map Char.toUInt8, isdigit b = true) ∧
      ofDigits ((Nat.toDigits 10 n).map Char.toUInt8) = n := by
  have hall : ∀ c ∈ Nat.toDigits 10 n, c.isDigit = true :=
    fun _ hc => Nat.isDigit_of_mem_toDigits (by decide) (by decide) hc
  refine ⟨⟨by simp [Nat.toDigits_ne_nil], ?_⟩, ?_⟩
  · intro b hb
    obtain ⟨c, hc, rfl⟩ := List.mem_map.1 hb
    exact (toNat_toUInt8 (hall c hc)).2
  · rw [ofDigits_map hall, Nat.ofDigitChars_ten_toDigits]

/-- a number that is written has the form of a numeral -/
theorem denotes_toString (value : ℤ) (hrest : ∀ b ∈ rest.head?, isdigit b = false) :
    Denotes (bytes (toString value) ++ rest) value := by
  cases value with
  | ofNat n =>
    obtain ⟨hdigits, hvalue⟩ := toDigits_bytes n
    have htext : bytes (toString (Int.ofNat n)) = (Nat.toDigits 10 n).map Char.toUInt8 :=
      congrArg (List.map Char.toUInt8) Nat.toList_repr
    refine ⟨[], [], (Nat.toDigits 10 n).map Char.toUInt8, rest, ⟨?_, by simp, by simp, hdigits, hrest⟩, ?_⟩
    · rw [htext]
      rfl
    · simp [numeralValue, hvalue]
  | negSucc n =>
    obtain ⟨hdigits, hvalue⟩ := toDigits_bytes (n + 1)
    have htext : bytes (toString (Int.negSucc n)) = minus :: (Nat.toDigits 10 (n + 1)).map Char.toUInt8 := by
      rw [bytes, Int.toString_eq_repr, Int.repr, String.toList_append, Nat.toList_repr]
      rfl
    refine ⟨[], [minus], (Nat.toDigits 10 (n + 1)).map Char.toUInt8, rest,
      ⟨?_, by simp, by simp, hdigits, hrest⟩, ?_⟩
    · rw [htext]
      rfl
    · rw [numeralValue, if_pos rfl, hvalue]
      rfl

/-- **Round trip.** -/
theorem stoi_toString (hlow : -2 ^ 31 ≤ value) (hhigh : value < 2 ^ 31)
    (hrest : ∀ b ∈ rest.head?, isdigit b = false) : stoi (bytes (toString value) ++ rest) = .ok value :=
  stoi_eq_ok_iff.2 ⟨denotes_toString value hrest, hlow, hhigh⟩

end HawkTxn.Core
