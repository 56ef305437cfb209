import Mathlib.Data.List.Infix
import Mathlib.Tactic.SplitIfs
import StateFlow.Json.Writer

/-!
# Escaped strings

What a string can hold between its quotes.  An escaped text stays on one line, a quote in it stands
behind a backslash (`escape_eq_append_quote`), and characters that need no escape stand for
themselves only (`escape_eq_plain_append`).  A number has digits, signs, a point and the mark of an
exponent in its text, and nothing else (`not_mem_number`).
-/

namespace StateFlow.Json

theorem append_eq_append_cons {α : Type} {u v a b : List α} {x : α}
    (heq : u ++ v = a ++ x :: b) :
    (∃ w, u = a ++ x :: w ∧ b = w ++ v) ∨ ∃ w, a = u ++ w ∧ v = w ++ x :: b := by
  rcases List.append_eq_append_iff.mp heq with ⟨w, ha, hv⟩ | ⟨w, hu, hb⟩
  · exact Or.inr ⟨w, ha, hv⟩
  · cases w with
    | nil => exact Or.inr ⟨[], by simpa using hu.symm, by simpa using hb.symm⟩
    | cons y w =>
        obtain ⟨rfl, rfl⟩ := List.cons.inj hb
        exact Or.inl ⟨w, hu, rfl⟩

theorem escapeChar_cases (c : Char) :
    escapeChar c = [c] ∧ c ≠ '"' ∧ c ≠ '\\' ∧ c ≠ '\n' ∨
      ∃ tail last, escapeChar c = '\\' :: tail ++ [last] ∧ '\n' ∉ '\\' :: tail ++ [last] ∧
        '"' ∉ tail ∧ last ≠ ')' ∧ (last = '"' → c = '"' ∧ tail = []) := by
  have hdigit : ∀ n < 16, Nat.digitChar n ≠ '\n' ∧ Nat.digitChar n ≠ '"' ∧
      Nat.digitChar n ≠ ')' := by decide
  unfold escapeChar
  split_ifs with h1 h2 h3 h4 h5 h6 h7 h8
  · exact Or.inr ⟨[], '"', by simp [h1]⟩
  · exact Or.inr ⟨[], '\\', by simp⟩
  · exact Or.inr ⟨[], 'n', by simp⟩
  · exact Or.inr ⟨[], 'r', by simp⟩
  · exact Or.inr ⟨[], 't', by simp⟩
  · exact Or.inr ⟨[], 'b', by simp⟩
  · exact Or.inr ⟨[], 'f', by simp⟩
  · have hhigh := hdigit (c.toNat / 16) (by omega)
    have hlow := hdigit (c.toNat % 16) (by omega)
    refine Or.inr ⟨['u', '0', '0', hexDigit (c.toNat / 16)], hexDigit (c.toNat % 16), ?_⟩
    simp [hexDigit, hhigh.1.symm, hhigh.2.1.symm, hlow.1.symm, hlow.2.1, hlow.2.2]
  · exact Or.inl ⟨rfl, h1, h2, h3⟩

theorem newline_not_mem_escape (text : List Char) : '\n' ∉ escape text := by
  intro hmem
  obtain ⟨c, -, hc⟩ := List.mem_flatMap.mp hmem
  rcases escapeChar_cases c with ⟨heq, -, -, hline⟩ | ⟨tail, last, heq, hline, -⟩
  · rw [heq, List.mem_singleton] at hc
    exact hline hc.symm
  · rw [heq] at hc
    exact hline hc

@[simp] theorem escape_cons (c : Char) (text : List Char) :
    escape (c :: text) = escapeChar c ++ escape text := rfl

@[simp] theorem escape_append (a b : List Char) :
    escape (a ++ b) = escape a ++ escape b := by
  simp [escape]

theorem escape_plain {text : List Char} (hplain : ∀ c ∈ text, escapeChar c = [c]) :
    escape text = text := by
  induction text with
  | nil => rfl
  | cons c text ih =>
      rw [List.forall_mem_cons] at hplain
      simp [hplain.1, ih hplain.2]

/-- Characters that need no escape stand for themselves only. -/
theorem escape_eq_plain_append {text plain rest : List Char}
    (hplain : ∀ c ∈ plain, escapeChar c = [c]) (heq : escape text = plain ++ rest) :
    ∃ tail, text = plain ++ tail ∧ rest = escape tail := by
  induction plain generalizing text with
  | nil => exact ⟨text, rfl, by simpa using heq.symm⟩
  | cons c plain ih =>
      rw [List.forall_mem_cons] at hplain
      cases text with
      | nil => simp [escape] at heq
      | cons d text =>
          rw [escape_cons, List.cons_append] at heq
          rcases escapeChar_cases d with ⟨hd, -⟩ | ⟨tail, last, hd, -⟩
          · obtain ⟨rfl, htail⟩ : d = c ∧ escape text = plain ++ rest := by
              simpa [hd] using heq
            obtain ⟨tail, rfl, hrest⟩ := ih hplain.2 htail
            exact ⟨tail, rfl, hrest⟩
          · obtain ⟨rfl, -⟩ : '\\' = c ∧ _ := by simpa [hd] using heq
            exact absurd hplain.1 (by decide)

/-- A quote in an escaped text stands for a quote of the text, behind a backslash. -/
theorem escape_eq_append_quote {text before rest : List Char}
    (heq : escape text = before ++ '"' :: rest) :
    ∃ front back, text = front ++ '"' :: back ∧ before = escape front ++ ['\\'] ∧
      rest = escape back := by
  induction text generalizing before with
  | nil => simp [escape] at heq
  | cons c text ih =>
      rw [escape_cons] at heq
      rcases append_eq_append_cons heq with ⟨w, hw, hrest⟩ | ⟨w, rfl, htext⟩
      · rcases escapeChar_cases c with ⟨hc, hne, -⟩ | ⟨tail, last, hc, -, htail, -, hlast⟩
        · rw [hc] at hw
          have hmem : '"' ∈ [c] := by simp [hw]
          exact absurd (List.mem_singleton.mp hmem).symm hne
        · rw [hc] at hw
          rcases append_eq_append_cons hw with ⟨w', hquote, -⟩ | ⟨w', rfl, hend⟩
          · have hmem : '"' ∈ '\\' :: tail := by simp [hquote]
            simp [htail] at hmem
          · obtain ⟨rfl, rfl, rfl⟩ : w' = [] ∧ last = '"' ∧ w = [] := by
              cases w' with
              | nil => simpa using hend
              | cons c w' => simp at hend
            obtain ⟨rfl, rfl⟩ := hlast rfl
            exact ⟨[], text, rfl, rfl, by simpa using hrest⟩
      · obtain ⟨front, back, rfl, rfl, hback⟩ := ih htext
        exact ⟨c :: front, back, rfl, by simp, hback⟩

theorem escape_getLast? {text before : List Char} (heq : escape text = before ++ [')']) :
    text.getLast? = some ')' := by
  rcases List.eq_nil_or_concat text with rfl | ⟨front, c, rfl⟩
  · simp [escape] at heq
  · have hlast : (escapeChar c).getLast? = some ')' := by
      rw [List.concat_eq_append, escape_append, escape_cons] at heq
      have hends := congrArg List.getLast? heq
      rcases escapeChar_cases c with ⟨hc, -⟩ | ⟨tail, last, hc, -⟩
      · simpa [hc, escape] using hends
      · simpa [hc, escape] using hends
    rcases escapeChar_cases c with ⟨hc, -⟩ | ⟨tail, last, hc, -, -, hne, -⟩
    · simpa [hc] using hlast
    · rw [hc, List.getLast?_concat] at hlast
      exact absurd (Option.some.inj hlast) hne

/-! ## Numbers -/

section Numbers

variable {c : Char} (hsign : c ∉ ['0', '+', '-', '.', 'e']) (hdigit : c.isDigit = false)
include hdigit

private theorem not_mem_toDigits (n : Nat) : c ∉ Nat.toDigits 10 n := by
  intro hmem
  rw [Nat.isDigit_of_mem_toDigits (by decide) (by decide) hmem] at hdigit
  cases hdigit

include hsign

private theorem not_mem_layout (d : Decimal) : c ∉ d.layout := by
  have hdigits := not_mem_toDigits hdigit d.digits
  unfold Decimal.layout
  simp only
  split_ifs
  all_goals simp only [List.mem_append, not_or]
  · refine ⟨⟨?_, by simp_all⟩, not_mem_toDigits hdigit _⟩
    split <;> simp_all
  · refine ⟨⟨?_, by simp_all⟩, not_mem_toDigits hdigit _⟩
    split <;> simp_all
  · simp_all [List.mem_replicate]
  · simp_all [List.mem_replicate]
  · exact ⟨⟨fun hmem => hdigits (List.mem_of_mem_take hmem), by simp_all⟩,
      fun hmem => hdigits (List.mem_of_mem_drop hmem)⟩

/-- A number is written with digits, signs, a point and an exponent's mark. -/
theorem not_mem_number (n : Number) : c ∉ n.text := by
  cases n with
  | int n hfits =>
      have hdigits := not_mem_toDigits hdigit n.natAbs
      rw [Number.text]
      split <;> simp_all
  | float x =>
      have hmagnitude :
          c ∉ (if x.isZero then ['0', '.', '0'] else (Decimal.shortest x).layout) := by
        split
        · simp_all
        · exact not_mem_layout hsign hdigit _
      rw [Number.text, Binary64.text]
      split <;> simp_all

end Numbers

end StateFlow.Json
