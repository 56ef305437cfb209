import Mathlib.Data.List.TakeWhile
import StateFlow.Json.Reader
import StateFlow.Proofs.Escape

/-!
# Written scalars read back

The reader takes an escaped string and a written integer for what they are.  The text behind a
number must not go on with a digit, a point or an exponent (`Ends`); where a reader stands in a text
is left open (`Reads`).
-/

namespace StateFlow.Json

namespace Reader

open StateFlow.Text

/-- A reader takes a value from the beginning of a text and leaves the rest, wherever that is. -/
def Reads {α : Type} (result : Except Fault (α × Cursor)) (x : α) (rest : List Char) : Prop :=
  ∃ pos, result = .ok (x, ⟨rest, pos⟩)

/-! ## Strings -/

private theorem hexValue?_hexDigit : ∀ n < 16, hexValue? (hexDigit n) = some n := by
  decide

private theorem hexValue4?_low {n : Nat} (hn : n < 32) :
    hexValue4? '0' '0' (hexDigit (n / 16)) (hexDigit (n % 16)) = some n := by
  have hzero : hexValue? '0' = some 0 := rfl
  simp only [hexValue4?, hzero, hexValue?_hexDigit (n / 16) (by omega),
    hexValue?_hexDigit (n % 16) (by omega)]
  simp
  omega

/-- An escaped character is read as the character. -/
theorem stringBody_escapeChar (c : Char) (pos : Position) :
    ∃ pos', ∀ rest read, stringBody (escapeChar c ++ rest) pos read =
      stringBody rest pos' (c :: read) := by
  unfold escapeChar
  split_ifs with h1 h2 h3 h4 h5 h6 h7 h8
  · exact ⟨pos.skip 2, fun rest read => by simp [stringBody, shortEscape?, h1]⟩
  · exact ⟨pos.skip 2, fun rest read => by simp [stringBody, shortEscape?, h2]⟩
  · exact ⟨pos.skip 2, fun rest read => by simp [stringBody, shortEscape?, h3]⟩
  · exact ⟨pos.skip 2, fun rest read => by simp [stringBody, shortEscape?, h4]⟩
  · exact ⟨pos.skip 2, fun rest read => by simp [stringBody, shortEscape?, h5]⟩
  · exact ⟨pos.skip 2, fun rest read => by simp [stringBody, shortEscape?, h6]⟩
  · exact ⟨pos.skip 2, fun rest read => by simp [stringBody, shortEscape?, h7]⟩
  · refine ⟨pos.skip 6, fun rest read => ?_⟩
    simp only [List.cons_append, List.nil_append]
    rw [stringBody, hexValue4?_low h8]
    have hsmall : c.toNat < 0xD800 ∨ 0xDFFF < c.toNat := by omega
    simp only [hsmall, if_true, Char.ofNat_toNat]
  · refine ⟨pos.after c, fun rest read => ?_⟩
    rw [List.singleton_append, stringBody.eq_def]
    split <;> simp_all [Nat.not_lt.mpr]

theorem stringBody_escape (text rest : List Char) (pos : Position) (read : List Char) :
    Reads (stringBody (escape text ++ '"' :: rest) pos read)
      (String.ofList (read.reverse ++ text)) rest := by
  induction text generalizing pos read with
  | nil => exact ⟨pos.skip 1, by simp [escape, stringBody]⟩
  | cons c text ih =>
      obtain ⟨pos', hstep⟩ := stringBody_escapeChar c pos
      rw [escape_cons, List.append_assoc, hstep]
      simpa using ih pos' (c :: read)

/-! ## Numbers -/

def Ends (rest : List Char) : Prop :=
  ∀ c ∈ rest.head?, isDigit c = false ∧ c ≠ '.' ∧ c ≠ 'e' ∧ c ≠ 'E'

private theorem le_ofDigitChars (digits : List Char) (init : Nat) :
    init ≤ Nat.ofDigitChars 10 digits init := by
  have hpos : 1 ≤ 10 ^ digits.length := Nat.one_le_pow _ _ (by decide)
  rw [Nat.ofDigitChars_eq_ofDigitChars_zero]
  exact Nat.le_add_right_of_le (Nat.le_mul_of_pos_left init hpos)

theorem takeDigits_eq {digits : List Char} {significand : Nat}
    (hfits : Nat.ofDigitChars 10 digits significand < 0x10000000000000000) :
    takeDigits significand digits = (Nat.ofDigitChars 10 digits significand, 0) := by
  induction digits generalizing significand with
  | nil => rfl
  | cons c digits ih =>
      have hstep : significand * 10 + digitValue c = 10 * significand + (c.toNat - '0'.toNat) := by
        rw [Nat.mul_comm, digitValue]
        rfl
      rw [Nat.ofDigitChars_cons, ← hstep] at hfits ⊢
      rw [takeDigits, if_pos (Nat.lt_of_le_of_lt (le_ofDigitChars digits _) hfits), ih hfits]

theorem isDigit_of_mem_toDigits {n : Nat} {c : Char} (hc : c ∈ Nat.toDigits 10 n) :
    isDigit c = true := by
  have hdigit := Nat.isDigit_of_mem_toDigits (by decide) (by decide) hc
  simpa [Char.isDigit, isDigit, Char.le_def] using hdigit

theorem exists_cons_toDigits (n : Nat) :
    ∃ first more, Nat.toDigits 10 n = first :: more ∧ isDigit first = true := by
  obtain ⟨first, more, hshape⟩ :=
    List.exists_cons_of_ne_nil (Nat.toDigits_ne_nil (n := n) (b := 10))
  exact ⟨first, more, hshape, isDigit_of_mem_toDigits (n := n) (by simp [hshape])⟩

/-- Only zero is written with a leading zero. -/
theorem head_toDigits {n : Nat} (hn : n ≠ 0) : (Nat.toDigits 10 n).head? ≠ some '0' := by
  induction n using Nat.strongRecOn with
  | ind n ih =>
      by_cases hsmall : n < 10
      · rw [Nat.toDigits_of_lt_base hsmall]
        have hdigits : ∀ k < 10, k ≠ 0 → Nat.digitChar k ≠ '0' := by decide
        simpa using hdigits n hsmall hn
      · have hrest := ih (n / 10) (by omega) (by omega)
        rw [Nat.toDigits_of_base_le (by decide) (by omega), List.head?_append_of_ne_nil]
        · exact hrest
        · exact Nat.toDigits_ne_nil

/-- A written natural is not refused for a leading zero. -/
private theorem no_leading_zero {n : Nat} {first : Char} {more rest : List Char}
    (hdigits : Nat.toDigits 10 n = first :: more) (hrest : Ends rest) :
    ¬ (first = '0' ∧ (more ++ rest).head?.any isDigit = true) := by
  rintro ⟨rfl, hnext⟩
  by_cases hn : n = 0
  · obtain rfl : more = [] := by simpa [hn] using hdigits.symm
    cases rest with
    | nil => simp at hnext
    | cons c rest => simp [(hrest c rfl).1] at hnext
  · exact head_toDigits hn (by rw [hdigits]; rfl)

theorem number_toDigits {negative : Bool} {n : Nat} {number : Number} {rest : List Char}
    (pos : Position) (hfits : n < 0x10000000000000000)
    (hnumber : wholeNumber? negative n 0 = some number) (hrest : Ends rest) :
    Reads (Reader.number negative ⟨Nat.toDigits 10 n ++ rest, pos⟩) number rest := by
  have hdigits : ∀ c ∈ Nat.toDigits 10 n, isDigit c = true := fun c => isDigit_of_mem_toDigits
  have hstop : rest.takeWhile isDigit = [] ∧ rest.dropWhile isDigit = rest := by
    cases rest with
    | nil => simp
    | cons c rest => simp [(hrest c rfl).1]
  have htake : (Nat.toDigits 10 n ++ rest).takeWhile isDigit = Nat.toDigits 10 n := by
    rw [List.takeWhile_append_of_pos hdigits, hstop.1, List.append_nil]
  have hdrop : (Nat.toDigits 10 n ++ rest).dropWhile isDigit = rest := by
    rw [List.dropWhile_append_of_pos hdigits, hstop.2]
  have hvalue : takeDigits 0 (Nat.toDigits 10 n) = (n, 0) := by
    have hback := Nat.ofDigitChars_toDigits (n := n) (b := 10) (by decide) (by decide)
    rw [takeDigits_eq (by rwa [hback]), hback]
  obtain ⟨first, more, hshape, hfirst⟩ := exists_cons_toDigits n
  have hzero := no_leading_zero hshape hrest
  have hcons : Nat.toDigits 10 n ++ rest = first :: (more ++ rest) := by simp [hshape]
  refine ⟨pos.skip (Nat.toDigits 10 n).length, ?_⟩
  unfold Reader.number
  simp only [hcons]
  rw [if_neg (by simp [hfirst]), if_neg hzero, ← hcons, htake, hdrop, hvalue]
  simp only [hnumber]
  cases rest with
  | nil => rfl
  | cons c rest =>
      obtain ⟨-, hdot, hlower, hupper⟩ := hrest c rfl
      split
      · next heq => exact absurd (List.cons.inj heq).1 hdot
      · next heq => exact absurd (List.cons.inj heq).1 hlower
      · next heq => exact absurd (List.cons.inj heq).1 hupper
      · rfl

/-! ## Values that are no containers -/

theorem ne_of_isDigit {c d : Char} (hc : isDigit c = true) (hd : isDigit d = false) : c ≠ d := by
  rintro rfl
  rw [hc] at hd
  cases hd

theorem scalar_digit {c : Char} (hdigit : isDigit c = true) (text : List Char) (pos : Position) :
    scalar ⟨c :: text, pos⟩ =
      (number false ⟨c :: text, pos⟩).map fun read => (.num read.1, read.2) := by
  unfold scalar
  split
  · next heq => cases heq
  · next heq => exact absurd (List.cons.inj heq).1 (ne_of_isDigit hdigit rfl)
  · next heq => exact absurd (List.cons.inj heq).1 (ne_of_isDigit hdigit rfl)
  · next heq => exact absurd (List.cons.inj heq).1 (ne_of_isDigit hdigit rfl)
  · next heq => exact absurd (List.cons.inj heq).1 (ne_of_isDigit hdigit rfl)
  · next heq => exact absurd (List.cons.inj heq).1 (ne_of_isDigit hdigit rfl)
  · next heq =>
      obtain ⟨rfl, rfl⟩ := List.cons.inj heq
      rw [if_pos hdigit]
      rfl

theorem scalar_int {n : Int} (hfits : -0x8000000000000000 ≤ n ∧ n < 0x10000000000000000)
    {rest : List Char} (pos : Position) (hrest : Ends rest) :
    Reads (scalar ⟨(Number.int n hfits).text ++ rest, pos⟩) (.num (.int n hfits)) rest := by
  rw [Number.text]
  split
  · next hneg =>
      have hnumber : wholeNumber? true n.natAbs 0 = some (.int n hfits) := by
        have hback : -(n.natAbs : Int) = n := by omega
        rw [wholeNumber?, if_neg (by decide), if_neg (by decide), if_neg (by omega),
          if_pos (by omega), Number.ofInt?, hback, dif_pos hfits]
      obtain ⟨pos', hread⟩ := number_toDigits (pos.skip 1) (by omega) hnumber hrest
      exact ⟨pos', by simp [scalar, hread, bind, Except.bind, pure, Except.pure]⟩
  · next hneg =>
      have hnumber : wholeNumber? false n.natAbs 0 = some (.int n hfits) := by
        have hback : (n.natAbs : Int) = n := by omega
        rw [wholeNumber?, if_neg (by decide), if_pos (by decide), Number.ofInt?, hback,
          dif_pos hfits]
      obtain ⟨pos', hread⟩ := number_toDigits pos (by omega) hnumber hrest
      obtain ⟨first, more, hshape, hfirst⟩ := exists_cons_toDigits n.natAbs
      rw [hshape, List.cons_append] at hread ⊢
      exact ⟨pos', by rw [scalar_digit hfirst, hread]; rfl⟩

theorem scalar_str (text : String) (rest : List Char) (pos : Position) :
    Reads (scalar ⟨quote text ++ rest, pos⟩) (.str text) rest := by
  obtain ⟨pos', hread⟩ := stringBody_escape text.toList rest (pos.skip 1) []
  refine ⟨pos', ?_⟩
  rw [List.reverse_nil, List.nil_append, String.ofList_toList] at hread
  simp [quote, scalar, string, hread, bind, Except.bind, pure, Except.pure]

end Reader

end StateFlow.Json
