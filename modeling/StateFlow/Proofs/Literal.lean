import StateFlow.Definition.Literal
import StateFlow.Proofs.Escape

/-!
# The literal pass

The pass works on text: a wrapper may begin at a quote inside a string and may end in another string
of the same line.  `strip_eq_self_iff` says when the pass changes nothing; `hasWrapper_append_quote`
and `hasWrapper_append_newline` find the wrappers of a text that is put together from pieces.
-/

namespace StateFlow.Literal

variable {marker : String}

def wrapper (marker : String) (inner : List Char) : List Char :=
  opening marker ++ inner ++ [')', '"']

def HasWrapper (marker : String) (text : List Char) : Prop :=
  ∃ inner, '\n' ∉ inner ∧ wrapper marker inner <:+: text

def Closes (text : List Char) : Prop :=
  ∃ inner, '\n' ∉ inner ∧ inner ++ [')', '"'] <+: text

/-! ## One wrapper -/

theorem inner?_eq_some {text inner : List Char} (hinner : inner? text = some inner) :
    '\n' ∉ inner ∧ inner ++ [')', '"'] <+: text := by
  induction text generalizing inner with
  | nil => simp [inner?] at hinner
  | cons c rest ih =>
      rw [inner?] at hinner
      split at hinner
      · cases hinner
      · next hline =>
          split at hinner
          · next text hrest =>
              cases hinner
              obtain ⟨hnone, hclose⟩ := ih hrest
              refine ⟨?_, ?_⟩
              · simp [hnone, Ne.symm hline]
              · simpa using hclose
          · split at hinner
            · next hclose =>
                cases hinner
                obtain ⟨rfl, hhead⟩ := hclose
                cases rest with
                | nil => simp at hhead
                | cons d rest => simp_all
            · cases hinner

theorem inner?_eq_none {text : List Char} (hnone : inner? text = none) : ¬ Closes text := by
  rintro ⟨inner, hline, after, rfl⟩
  induction inner with
  | nil =>
      simp [inner?] at hnone
      split at hnone <;> simp at hnone
  | cons c inner ih =>
      simp only [List.mem_cons, not_or] at hline
      rw [List.cons_append, List.cons_append, inner?, if_neg (Ne.symm hline.1)] at hnone
      split at hnone
      · cases hnone
      · next hrest => exact ih hline.2 hrest

theorem wrapped?_eq_some {text inner : List Char}
    (hwrapped : wrapped? (opening marker) text = some inner) :
    '\n' ∉ inner ∧ wrapper marker inner <+: text := by
  unfold wrapped? at hwrapped
  split at hwrapped
  · next hopening =>
      obtain ⟨rest, rfl⟩ := List.isPrefixOf_iff_prefix.mp hopening
      rw [List.drop_left] at hwrapped
      obtain ⟨hline, after, rfl⟩ := inner?_eq_some hwrapped
      exact ⟨hline, after, by simp [wrapper]⟩
  · cases hwrapped

theorem wrapped?_eq_none {text : List Char}
    (hnone : wrapped? (opening marker) text = none) {inner : List Char} (hline : '\n' ∉ inner) :
    ¬ wrapper marker inner <+: text := by
  rintro ⟨after, rfl⟩
  have hsplit : wrapper marker inner ++ after =
      opening marker ++ (inner ++ [')', '"'] ++ after) := by simp [wrapper]
  have hopening : (opening marker).isPrefixOf (wrapper marker inner ++ after) = true := by
    rw [List.isPrefixOf_iff_prefix, hsplit]
    exact List.prefix_append _ _
  rw [wrapped?, if_pos hopening, hsplit, List.drop_left] at hnone
  exact inner?_eq_none hnone ⟨inner, hline, List.prefix_append _ _⟩

/-! ## The pass -/

theorem length_stripFrom_le (marker : String) (skip : Nat) (text : List Char) :
    (stripFrom (opening marker) skip text).length ≤ text.length - skip := by
  fun_induction stripFrom (opening marker) skip text with
  | case1 => simp
  | case2 skip c rest ih => simpa using ih
  | case3 c rest inner hwrapped ih =>
      have hlength := (wrapped?_eq_some hwrapped).2.length_le
      simp only [wrapper, List.length_append, List.length_cons, List.length_nil] at hlength
      simp only [List.length_append, List.length_cons]
      omega
  | case4 c rest hnone ih => simpa using ih

theorem hasWrapper_cons {c : Char} {text : List Char} :
    HasWrapper marker (c :: text) ↔
      (∃ inner, '\n' ∉ inner ∧ wrapper marker inner <+: c :: text) ∨ HasWrapper marker text := by
  simp only [HasWrapper, List.infix_cons_iff, and_or_left, exists_or]

/-- The pass changes a text exactly if a wrapper stands in it. -/
theorem strip_eq_self_iff (marker : String) (text : List Char) :
    strip marker text = text ↔ ¬ HasWrapper marker text := by
  unfold strip
  induction text with
  | nil => simp [stripFrom, HasWrapper, wrapper]
  | cons c rest ih =>
      rw [stripFrom, hasWrapper_cons]
      split
      · next inner hwrapped =>
          obtain ⟨hline, hprefix⟩ := wrapped?_eq_some hwrapped
          have hshorter : (inner ++ stripFrom (opening marker)
              ((opening marker).length + inner.length + 1) rest).length < (c :: rest).length := by
            have hrest := length_stripFrom_le marker
              ((opening marker).length + inner.length + 1) rest
            have hlength := hprefix.length_le
            simp only [wrapper, List.length_append, List.length_cons, List.length_nil] at hlength
            simp only [List.length_append, List.length_cons]
            omega
          constructor
          · intro heq
            rw [heq] at hshorter
            exact absurd hshorter (Nat.lt_irrefl _)
          · intro hnone
            exact absurd (Or.inl ⟨inner, hline, hprefix⟩) hnone
      · next hnone =>
          have hhead : ¬ ∃ inner, '\n' ∉ inner ∧ wrapper marker inner <+: c :: rest :=
            fun ⟨inner, hline, hprefix⟩ => wrapped?_eq_none hnone hline hprefix
          rw [List.cons_inj_right, ih, or_iff_right hhead]

/-! ## Pieces of a text -/

/-- No character of a marker has to be escaped in a string. -/
def Plain (marker : String) : Prop := ∀ c ∈ marker.toList, Json.escapeChar c = [c]

theorem HasWrapper.mono {a b : List Char} (hwithin : a <:+: b) (ha : HasWrapper marker a) :
    HasWrapper marker b := by
  obtain ⟨inner, hline, hwrapper⟩ := ha
  exact ⟨inner, hline, hwrapper.trans hwithin⟩

/-- A wrapper ends with a quote, so text without quotes behind it does not matter. -/
theorem hasWrapper_append_unquoted {a b : List Char} (hb : '"' ∉ b) :
    HasWrapper marker (a ++ b) ↔ HasWrapper marker a := by
  refine ⟨?_, HasWrapper.mono (List.prefix_append a b).isInfix⟩
  rintro ⟨inner, hline, before, after, heq⟩
  have hsplit : a ++ b = (before ++ opening marker ++ inner ++ [')']) ++ '"' :: after := by
    simp [← heq, wrapper]
  rcases Json.append_eq_append_cons hsplit with ⟨w, ha, -⟩ | ⟨w, -, hw⟩
  · exact ⟨inner, hline, before, w, by simp [ha, wrapper]⟩
  · exact absurd (by simp [hw]) hb

/-- A wrapper begins with a quote, so text without quotes in front of it does not matter. -/
theorem hasWrapper_unquoted_append {a b : List Char} (ha : '"' ∉ a) :
    HasWrapper marker (a ++ b) ↔ HasWrapper marker b := by
  refine ⟨?_, HasWrapper.mono (List.suffix_append a b).isInfix⟩
  rintro ⟨inner, hline, before, after, heq⟩
  have hsplit : a ++ b =
      before ++ '"' :: (marker.toList ++ ['('] ++ inner ++ [')', '"'] ++ after) := by
    simp [← heq, wrapper, opening]
  rcases Json.append_eq_append_cons hsplit with ⟨w, hw, -⟩ | ⟨w, -, hb⟩
  · exact absurd (by simp [hw]) ha
  · exact ⟨inner, hline, w, after, by simp [hb, wrapper, opening]⟩

/-- Text without quotes holds no wrapper. -/
theorem not_hasWrapper_unquoted {a : List Char} (ha : '"' ∉ a) : ¬ HasWrapper marker a := by
  rintro ⟨inner, -, hwithin⟩
  exact ha (hwithin.subset (by simp [wrapper, opening]))

theorem Plain.not_mem {c : Char} (hplain : Plain marker) (hc : Json.escapeChar c ≠ [c]) :
    c ∉ marker.toList := fun hmem => hc (hplain c hmem)

/-- A wrapper stands on one line. -/
theorem hasWrapper_append_newline (hplain : Plain marker) {a b : List Char} :
    HasWrapper marker (a ++ '\n' :: b) ↔ HasWrapper marker a ∨ HasWrapper marker b := by
  constructor
  · rintro ⟨inner, hline, before, after, heq⟩
    have hmarker : '\n' ∉ marker.toList := hplain.not_mem (by decide)
    have hwrapper : '\n' ∉ wrapper marker inner := by simp [wrapper, opening, hmarker, hline]
    rw [List.append_assoc] at heq
    rcases Json.append_eq_append_cons heq with ⟨w, -, hb⟩ | ⟨w, ha, hw⟩
    · exact Or.inr ⟨inner, hline, w, after, by simp [hb]⟩
    · rcases Json.append_eq_append_cons hw with ⟨w', hw', -⟩ | ⟨w', rfl, -⟩
      · exact absurd (by simp [hw']) hwrapper
      · exact Or.inl ⟨inner, hline, before, w', by simp [ha]⟩
  · rintro (ha | hb)
    · exact ha.mono (List.prefix_append a _).isInfix
    · exact hb.mono (List.suffix_append (a ++ ['\n']) b |>.isInfix.trans (by simp))

/-- A wrapper is opened in a text and not closed by the end of a line. -/
def HasOpening (marker : String) (text : List Char) : Prop :=
  ∃ before rest, text = before ++ opening marker ++ rest ∧ '\n' ∉ rest

/-- The closing of a wrapper stands in front of a quote that follows, or behind it. -/
private theorem closing_cases {inner after rest b : List Char} (hline : '\n' ∉ inner)
    (hrest : rest.getLast? ≠ some ')') (heq : inner ++ ')' :: '"' :: after = rest ++ '"' :: b) :
    inner ++ [')', '"'] <+: rest ∨ '\n' ∉ rest ∧ Closes ('"' :: b) := by
  have hclosing : rest ++ '"' :: b = (inner ++ [')']) ++ '"' :: after := by simp [← heq]
  rcases Json.append_eq_append_cons hclosing with ⟨w, rfl, -⟩ | ⟨w, hinner, hb⟩
  · exact Or.inl ⟨w, by simp⟩
  · rcases List.eq_nil_or_concat w with rfl | ⟨last, c, rfl⟩
    · refine absurd ?_ hrest
      rw [List.append_nil] at hinner
      simp [← hinner]
    · have hends : inner ++ [')'] = (rest ++ last) ++ [c] := by simpa using hinner
      obtain ⟨rfl, hc⟩ := List.append_inj' hends rfl
      obtain rfl : ')' = c := by simpa using hc
      simp only [List.mem_append, not_or] at hline
      exact Or.inr ⟨hline.1, last, hline.2, after, by simp [hb]⟩

/-- A wrapper begins at a quote and ends with one.  Where text stands in front of a quote, it is in
that text, behind it, or opened in the one and closed in the other. -/
theorem hasWrapper_append_quote (hplain : Plain marker) {a b : List Char}
    (ha : a.getLast? ≠ some ')') :
    HasWrapper marker (a ++ '"' :: b) ↔ HasWrapper marker a ∨ HasWrapper marker ('"' :: b) ∨
      (HasOpening marker a ∧ Closes ('"' :: b)) := by
  constructor
  · rintro ⟨inner, hline, before, after, heq⟩
    let middle := marker.toList ++ ['(']
    have hmiddle : '"' ∉ middle := by simp [middle, hplain.not_mem (c := '"') (by decide)]
    have hopening : before ++ ('"' :: middle ++ inner ++ ')' :: '"' :: after) = a ++ '"' :: b := by
      simpa [wrapper, opening, middle] using heq
    rcases Json.append_eq_append_cons hopening with ⟨w, -, hb⟩ | ⟨w, ha', hw⟩
    · refine Or.inr (Or.inl ⟨inner, hline, '"' :: w, after, ?_⟩)
      simp [hb, wrapper, opening, middle]
    cases w with
    | nil =>
        refine Or.inr (Or.inl ⟨inner, hline, [], after, ?_⟩)
        simpa [wrapper, opening, middle] using hw
    | cons c w =>
        obtain ⟨hc, hw'⟩ : '"' = c ∧ middle ++ (inner ++ ')' :: '"' :: after) = w ++ '"' :: b := by
          simpa using hw
        rcases Json.append_eq_append_cons hw' with ⟨w', hmem, -⟩ | ⟨rest, hrest, hclosing⟩
        · exact absurd (by simp [hmem]) hmiddle
        have hopened : a = before ++ opening marker ++ rest := by
          simp [ha', hrest, ← hc, opening, middle]
        have hlast : rest.getLast? ≠ some ')' := by
          intro hlast
          apply ha
          rw [hopened, List.getLast?_append, hlast]
          rfl
        rcases closing_cases hline hlast hclosing with ⟨after', rfl⟩ | ⟨hrest', hcloses⟩
        · exact Or.inl ⟨inner, hline, before, after', by simp [hopened, wrapper]⟩
        · exact Or.inr (Or.inr ⟨⟨before, rest, hopened, hrest'⟩, hcloses⟩)
  · rintro (hleft | hright | ⟨⟨before, rest, rfl, hrest⟩, inner, hline, after, hclose⟩)
    · exact hleft.mono (List.prefix_append a _).isInfix
    · exact hright.mono (List.suffix_append a _).isInfix
    · refine ⟨rest ++ inner, by simp [hrest, hline], before, after, ?_⟩
      simp [wrapper, ← hclose]

end StateFlow.Literal
