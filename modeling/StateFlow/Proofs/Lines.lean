import Mathlib.Data.List.Forall2
import StateFlow.Proofs.Unwrapping

/-!
# The literal pass line by line

The pass goes through a text as a whole, yet a line break stops everything it looks for: no opening
has one in it, and the closing is looked for on the same line (`inner?_append_newline`).  So a
wrapper is found in front of a line break whatever stands behind it (`wrapped?_append_newline`), and
the pass may be run on each line alone (`strip_append_newline`).

On one line it does little.  From the first opening on, everything up to the last closing is one
wrapper, and behind that nothing is closed any more.  `UnwrapsLine` says so without the pass, and
`unwrapsLine_strip` that the pass does it.
-/

namespace StateFlow.Literal

variable {marker : String}

/-! ## Line breaks -/

theorem inner?_append_newline (a b : List Char) : inner? (a ++ '\n' :: b) = inner? a := by
  induction a with
  | nil => simp [inner?]
  | cons c rest ih =>
      have hhead : (rest ++ '\n' :: b).head? = some '"' ↔ rest.head? = some '"' := by
        cases rest <;> simp
      rw [List.cons_append, inner?, inner?, ih]
      simp only [hhead]

/-- A wrapper begins in front of a line break exactly if it begins there in the text that ends with
the line. -/
theorem wrapped?_append_newline (hmarker : '\n' ∉ marker.toList) (a b : List Char) :
    wrapped? (opening marker) (a ++ '\n' :: b) = wrapped? (opening marker) a := by
  have hopening : '\n' ∉ opening marker := by simp [opening, hmarker]
  unfold wrapped?
  simp only [List.isPrefixOf_iff_prefix]
  by_cases hopened : opening marker <+: a
  · obtain ⟨rest, rfl⟩ := hopened
    rw [List.append_assoc, if_pos (List.prefix_append _ _), if_pos (List.prefix_append _ _),
      List.drop_left, List.drop_left, inner?_append_newline]
  · have hbehind : ¬ opening marker <+: a ++ '\n' :: b := by
      rintro ⟨rest, heq⟩
      rcases Json.append_eq_append_cons heq with ⟨w, hw, -⟩ | ⟨w, rfl, -⟩
      · exact hopening (by simp [hw])
      · exact hopened (List.prefix_append _ _)
    rw [if_neg hbehind, if_neg hopened]

/-- The pass in front of a line break does not see what stands behind it, as long as it skips
nothing there. -/
theorem stripFrom_append_newline (hmarker : '\n' ∉ marker.toList) {skip : Nat} {a : List Char}
    (hskip : skip ≤ a.length) (b : List Char) :
    stripFrom (opening marker) skip (a ++ '\n' :: b) =
      stripFrom (opening marker) skip a ++ '\n' :: strip marker b := by
  fun_induction stripFrom (opening marker) skip a with
  | case1 skip =>
      obtain rfl : skip = 0 := by simpa using hskip
      exact strip_cons_of_none (wrapped?_unquoted (by decide))
  | case2 skip c rest ih =>
      rw [List.cons_append, stripFrom]
      exact ih (by simpa using hskip)
  | case3 c rest inner hwrapped ih =>
      -- The whole wrapper stands in front of the line break, so what is skipped of it does too.
      have hlength := (wrapped?_eq_some hwrapped).2.length_le
      simp only [wrapper, List.length_append, List.length_cons, List.length_nil] at hlength
      have hnewline := wrapped?_append_newline hmarker (c :: rest) b
      rw [List.cons_append, hwrapped] at hnewline
      rw [List.cons_append, stripFrom, hnewline]
      simp only
      rw [ih (by omega), List.append_assoc]
  | case4 c rest hnone ih =>
      have hnewline := wrapped?_append_newline hmarker (c :: rest) b
      rw [List.cons_append, hnone] at hnewline
      rw [List.cons_append, stripFrom, hnewline]
      simp only
      rw [ih (Nat.zero_le _), List.cons_append]

theorem strip_append_newline (hmarker : '\n' ∉ marker.toList) (a b : List Char) :
    strip marker (a ++ '\n' :: b) = strip marker a ++ '\n' :: strip marker b :=
  stripFrom_append_newline hmarker (Nat.zero_le _) b

/-- What is opened on one line and closed on the next is no wrapper. -/
example : strip Settings.production.literalMarker
      "\"apb_render_nonstring_value(1\n2)\"".toList =
    "\"apb_render_nonstring_value(1\n2)\"".toList := by
  decide +kernel

/-! ## One line -/

/-- What becomes of a line: it is kept if no wrapper stands on it, and otherwise the text from its
first opening to its last closing is unwrapped. -/
inductive UnwrapsLine (marker : String) : List Char → List Char → Prop
  | kept {line : List Char} (hnone : ¬ HasWrapper marker line) : UnwrapsLine marker line line
  | unwrapped (front inner back : List Char) (hfirst : ¬ opening marker <:+: front)
      (hlast : ¬ [')', '"'] <:+: back) :
      UnwrapsLine marker (front ++ wrapper marker inner ++ back) (front ++ inner ++ back)

theorem inner?_last {inner back : List Char}
    (hinner : inner? (inner ++ ')' :: '"' :: back) = some inner) : ¬ Closes ('"' :: back) := by
  induction inner with
  | nil =>
      rw [List.nil_append, inner?] at hinner
      cases hrest : inner? ('"' :: back) with
      | none => exact inner?_eq_none hrest
      | some text => simp [hrest] at hinner
  | cons c inner ih =>
      rw [List.cons_append, inner?] at hinner
      apply ih
      split at hinner
      · cases hinner
      · split at hinner
        · next text hrest =>
            obtain rfl : text = inner := by simpa using hinner
            exact hrest
        · split at hinner <;> cases hinner

/-- A wrapper reaches to the last closing of its line. -/
theorem wrapped?_last {text inner : List Char}
    (hwrapped : wrapped? (opening marker) text = some inner) :
    ∃ back, text = wrapper marker inner ++ back ∧ ¬ Closes ('"' :: back) := by
  obtain ⟨-, back, rfl⟩ := wrapped?_eq_some hwrapped
  have hsplit : wrapper marker inner ++ back =
      opening marker ++ (inner ++ ')' :: '"' :: back) := by simp [wrapper]
  unfold wrapped? at hwrapped
  rw [hsplit, List.drop_left] at hwrapped
  split at hwrapped
  · exact ⟨back, rfl, inner?_last hwrapped⟩
  · cases hwrapped

theorem closing_infix_wrapper (inner : List Char) : [')', '"'] <:+: wrapper marker inner :=
  (List.suffix_append (opening marker ++ inner) [')', '"']).isInfix

/-- The rest of a line behind a wrapper closes nothing. -/
theorem not_closing_behind {back : List Char} (hline : '\n' ∉ back)
    (hlast : ¬ Closes ('"' :: back)) : ¬ [')', '"'] <:+: back := by
  rintro ⟨inner, after, rfl⟩
  simp only [List.mem_append, not_or] at hline
  exact hlast ⟨'"' :: inner, by simp [hline.1.1], after, by simp⟩

theorem unwrapsLine_strip {line : List Char} (hline : '\n' ∉ line) :
    UnwrapsLine marker line (strip marker line) := by
  induction line with
  | nil => exact .kept (not_hasWrapper_unquoted (by simp))
  | cons c rest ih =>
      cases hwrapped : wrapped? (opening marker) (c :: rest) with
      | some inner =>
          obtain ⟨hinner, -⟩ := wrapped?_eq_some hwrapped
          obtain ⟨back, heq, hlast⟩ := wrapped?_last hwrapped
          rw [heq] at hline ⊢
          have hclosing : ¬ [')', '"'] <:+: back :=
            not_closing_behind (fun hmem => hline (List.mem_append_right _ hmem)) hlast
          have hback : strip marker back = back := by
            rw [strip_eq_self_iff]
            rintro ⟨inner, -, hwithin⟩
            exact hclosing ((closing_infix_wrapper inner).trans hwithin)
          rw [strip_wrapper_append hinner hlast, hback]
          exact .unwrapped [] inner back (by simp [opening]) hclosing
      | none =>
          rw [strip_cons_of_none hwrapped]
          have hrest := ih fun hmem => hline (List.mem_cons_of_mem _ hmem)
          generalize strip marker rest = written at hrest
          cases hrest with
          | kept hnone =>
              refine .kept ?_
              rw [hasWrapper_cons, not_or]
              refine ⟨?_, hnone⟩
              rintro ⟨inner, hinner, hprefix⟩
              exact wrapped?_eq_none hwrapped hinner hprefix
          | unwrapped front inner back hfirst hlast =>
              refine .unwrapped (c :: front) inner back ?_ hlast
              rw [List.infix_cons_iff, not_or]
              refine ⟨?_, hfirst⟩
              -- An opening here would be closed by the wrapper that stands behind it.
              rintro ⟨between, heq⟩
              let longer := between ++ opening marker ++ inner
              have htext : c :: (front ++ wrapper marker inner ++ back) =
                  wrapper marker longer ++ back := by
                rw [← List.cons_append, ← List.cons_append, ← heq]
                simp [wrapper, longer]
              have hlonger : '\n' ∉ longer := by
                intro hmem
                apply hline
                rw [htext]
                simp [wrapper, hmem]
              exact wrapped?_eq_none hwrapped hlonger (htext ▸ List.prefix_append _ _)

theorem UnwrapsLine.newline_not_mem {line written : List Char}
    (hunwraps : UnwrapsLine marker line written) (hline : '\n' ∉ line) : '\n' ∉ written := by
  cases hunwraps with
  | kept => exact hline
  | unwrapped front inner back => simp_all [wrapper]

/-! ## All lines -/

theorem splitOn_line {line : List Char} (hline : '\n' ∉ line) : line.splitOn '\n' = [line] := by
  apply List.splitOnP_eq_singleton
  intro c hc
  rw [beq_eq_false_iff_ne]
  rintro rfl
  exact hline hc

theorem splitOn_append_newline (a b : List Char) :
    (a ++ '\n' :: b).splitOn '\n' = a.splitOn '\n' ++ b.splitOn '\n' :=
  List.splitOnP_append_cons a b (by simp)

/-- The lines of what the pass writes come each from the line in the same place. -/
theorem unwrapsLine_lines (hmarker : '\n' ∉ marker.toList) (text : List Char) :
    List.Forall₂ (UnwrapsLine marker) (text.splitOn '\n')
      ((strip marker text).splitOn '\n') := by
  induction hlength : text.length using Nat.strong_induction_on generalizing text with
  | _ n ih =>
      subst hlength
      by_cases hline : '\n' ∈ text
      · obtain ⟨a, b, rfl⟩ := List.append_of_mem hline
        have ha : a.length < (a ++ '\n' :: b).length := by simp
        have hb : b.length < (a ++ '\n' :: b).length := by
          rw [List.length_append, List.length_cons]
          omega
        rw [strip_append_newline hmarker, splitOn_append_newline, splitOn_append_newline]
        exact List.rel_append (ih _ ha a rfl) (ih _ hb b rfl)
      · have hunwraps : UnwrapsLine marker text (strip marker text) := unwrapsLine_strip hline
        rw [splitOn_line hline, splitOn_line (hunwraps.newline_not_mem hline)]
        exact .cons hunwraps .nil

/-- The pass over two texts with a line break between them is the pass over each of them.  A line of
any text comes out as it is, or with the one wrapper unwrapped that stands on it, whatever the other
lines are. -/
theorem strip_lineByLine :
    (∀ a b, strip Settings.production.literalMarker (a ++ '\n' :: b) =
      strip Settings.production.literalMarker a ++
        '\n' :: strip Settings.production.literalMarker b) ∧
    ∀ text : List Char, List.Forall₂ (UnwrapsLine Settings.production.literalMarker)
      (text.splitOn '\n') ((strip Settings.production.literalMarker text).splitOn '\n') := by
  have hmarker : '\n' ∉ Settings.production.literalMarker.toList :=
    production_plain.not_mem (by decide)
  exact ⟨strip_append_newline hmarker, unwrapsLine_lines hmarker⟩

end StateFlow.Literal
