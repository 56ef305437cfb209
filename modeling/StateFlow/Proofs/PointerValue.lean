import StateFlow.Proofs.Kept
import StateFlow.Proofs.Pointer

/-!
# What pointers resolve to

A pointer is empty or begins with a slash; what stands between its slashes names a member or counts
an item.  The pointer of a place resolves to the value there.  A path that is put together from
names as they are is the pointer of a place exactly if none of the names has a character to escape
(`plainPointer_eq_pointer_iff`).
-/

namespace StateFlow.Json

/-! ## Resolving -/

/-- The number that a step stands for; it is written without leading zeros. -/
def itemNumber? (step : List Char) : Option Nat :=
  let n := Nat.ofDigitChars 10 step 0
  if Nat.toDigits 10 n = step then some n else none

def follow? : Json → List Char → Option Json
  | obj members, step => (token? step).bind fun name => Entries.get? members (String.ofList name)
  | arr items, step => (itemNumber? step).bind fun n => items[n]?
  | _, _ => none

def resolve? (v : Json) (pointer : String) : Option Json :=
  match pointer.toList with
  | [] => some v
  | '/' :: rest => (rest.splitOn '/').foldlM follow? v
  | _ => none

theorem itemNumber?_toDigits (n : Nat) : itemNumber? (Nat.toDigits 10 n) = some n := by
  simp [itemNumber?, Nat.ofDigitChars_ten_toDigits]

/-- The text of a step leads where the step leads. -/
theorem follow?_text {v w : Json} {segment : Segment} (hstep : step? v segment = some w) :
    follow? v segment.text = some w := by
  cases v with
  | obj members =>
      cases segment with
      | key name =>
          have hget : Entries.get? members name = some w := hstep
          simpa [follow?, Segment.text, token?_flatMap] using hget
      | index n => cases hstep
  | arr items =>
      cases segment with
      | key name => cases hstep
      | index n =>
          have hget : items[n]? = some w := hstep
          simpa [follow?, Segment.text, itemNumber?_toDigits] using hget
  | _ => cases segment <;> cases hstep

theorem foldlM_follow? {v w : Json} {place : List Segment} (hat : v.at? place = some w) :
    (place.map Segment.text).foldlM follow? v = some w := by
  induction place generalizing v with
  | nil => exact hat
  | cons segment place ih =>
      obtain ⟨u, hstep, hrest⟩ := Option.bind_eq_some_iff.mp hat
      rw [List.map_cons, List.foldlM_cons, follow?_text hstep]
      exact ih hrest

theorem pointerChars_cons (segment : Segment) (place : List Segment) :
    pointerChars (segment :: place) =
      '/' :: ['/'].intercalate ((segment :: place).map Segment.text) := by
  induction place generalizing segment with
  | nil => simp [pointerChars, List.intercalate]
  | cons next place ih =>
      have hrest := ih next
      simp only [pointerChars, List.flatMap_cons] at hrest ⊢
      rw [hrest]
      simp [List.intercalate]

/-- The pointer of a place resolves to the value at the place. -/
theorem resolve?_pointer {v w : Json} {place : List Segment} (hat : v.at? place = some w) :
    v.resolve? (pointer place) = some w := by
  have hchars : (pointer place).toList = pointerChars place := String.toList_ofList
  cases place with
  | nil =>
      simp only [resolve?, hchars]
      exact hat
  | cons segment place =>
      rw [pointerChars_cons] at hchars
      simp only [resolve?, hchars]
      rw [List.splitOn_intercalate '/' _ (by simp)]
      · exact foldlM_follow? hat
      · intro text htext
        obtain ⟨step, -, rfl⟩ := List.mem_map.mp htext
        exact slash_not_mem_text step

/-! ## Paths without escapes -/

def Segment.plainText : Segment → List Char
  | .key name => name.toList
  | .index n => Nat.toDigits 10 n

def plainPointer (path : List Segment) : String :=
  String.ofList (path.flatMap fun segment => '/' :: segment.plainText)

theorem plainPointer_append (a b : List Segment) :
    plainPointer (a ++ b) = plainPointer a ++ plainPointer b := by
  simp [plainPointer, String.ofList_append]

theorem length_pointerChar (c : Char) :
    (pointerChar c).length = if c = '~' ∨ c = '/' then 2 else 1 := by
  unfold pointerChar
  by_cases htilde : c = '~'
  · simp [htilde]
  · by_cases hslash : c = '/' <;> simp [htilde, hslash]

theorem length_le_flatMap (text : List Char) : text.length ≤ (text.flatMap pointerChar).length := by
  induction text with
  | nil => exact Nat.le_refl 0
  | cons c text ih =>
      have hchar : 1 ≤ (pointerChar c).length := by
        rw [length_pointerChar]
        split <;> omega
      rw [List.flatMap_cons, List.length_append, List.length_cons]
      omega

/-- Escaping makes a text longer wherever it changes it. -/
theorem length_flatMap_eq_iff {text : List Char} :
    (text.flatMap pointerChar).length = text.length ↔ '/' ∉ text ∧ '~' ∉ text := by
  induction text with
  | nil => simp
  | cons c text ih =>
      have hrest := length_le_flatMap text
      rw [List.flatMap_cons, List.length_append, List.length_cons, length_pointerChar,
        List.mem_cons, List.mem_cons, not_or, not_or]
      by_cases hescaped : c = '~' ∨ c = '/'
      · rw [if_pos hescaped]
        constructor
        · intro hlength
          omega
        · intro hplain
          rcases hescaped with heq | heq
          · exact absurd heq.symm hplain.2.1
          · exact absurd heq.symm hplain.1.1
      · rw [if_neg hescaped]
        have hslash : '/' ≠ c := fun heq => hescaped (Or.inr heq.symm)
        have htilde : '~' ≠ c := fun heq => hescaped (Or.inl heq.symm)
        constructor
        · intro hlength
          have hplain := ih.mp (by omega)
          exact ⟨⟨hslash, hplain.1⟩, htilde, hplain.2⟩
        · intro hplain
          have hlength := ih.mpr ⟨hplain.1.2, hplain.2.2⟩
          omega

def Segment.Plain : Segment → Prop
  | .key name => '/' ∉ name.toList ∧ '~' ∉ name.toList
  | .index _ => True

theorem length_plainText_le (segment : Segment) :
    segment.plainText.length ≤ segment.text.length := by
  cases segment with
  | key name => exact length_le_flatMap name.toList
  | index n => exact Nat.le_refl _

theorem plainText_eq_text_iff {segment : Segment} :
    segment.plainText = segment.text ↔ segment.Plain := by
  cases segment with
  | key name =>
      change name.toList = name.toList.flatMap pointerChar ↔ '/' ∉ name.toList ∧ '~' ∉ name.toList
      rw [← length_flatMap_eq_iff]
      constructor
      · intro heq
        rw [← heq]
      · intro hlength
        have hplain := length_flatMap_eq_iff.mp hlength
        have hsame : ∀ c ∈ name.toList, pointerChar c = [c] := by
          intro c hc
          have htilde : c ≠ '~' := fun heq => hplain.2 (heq ▸ hc)
          have hslash : c ≠ '/' := fun heq => hplain.1 (heq ▸ hc)
          simp [pointerChar, htilde, hslash]
        rw [List.flatMap_congr hsame, List.flatMap_singleton']
  | index n => simp [Segment.plainText, Segment.text, Segment.Plain]

theorem length_plainPointer_le (place : List Segment) :
    (place.flatMap fun segment => '/' :: segment.plainText).length ≤
      (place.flatMap fun segment => '/' :: segment.text).length := by
  induction place with
  | nil => exact Nat.le_refl 0
  | cons segment place ih =>
      have hfirst := length_plainText_le segment
      rw [List.flatMap_cons, List.flatMap_cons, List.length_append, List.length_append,
        List.length_cons, List.length_cons]
      omega

/-- The path of a place is its pointer exactly if nothing in it has to be escaped. -/
theorem plainPointer_eq_pointer_iff {place : List Segment} :
    plainPointer place = pointer place ↔ ∀ segment ∈ place, segment.Plain := by
  rw [plainPointer, pointer, String.ofList_inj]
  induction place with
  | nil => simp
  | cons segment place ih =>
      rw [List.flatMap_cons, List.flatMap_cons, List.cons_append, List.cons_append,
        List.cons.injEq, List.forall_mem_cons, ← ih, ← plainText_eq_text_iff]
      constructor
      · rintro ⟨-, heq⟩
        -- Neither part is longer without escapes, so both are as long as with them.
        have hfirst := length_plainText_le segment
        have hrest := length_plainPointer_le place
        have hlength := congrArg List.length heq
        rw [List.length_append, List.length_append] at hlength
        exact List.append_inj heq (by omega)
      · rintro ⟨hfirst, hrest⟩
        exact ⟨rfl, by rw [hfirst, hrest]⟩

/-! ## Places -/

theorem at?_append (v : Json) (a b : List Segment) :
    v.at? (a ++ b) = (v.at? a).bind fun w => w.at? b := by
  simp [at?]

theorem wellFormed_of_step? {v w : Json} {segment : Segment} (hwell : v.WellFormed)
    (hstep : step? v segment = some w) : w.WellFormed := by
  cases v with
  | obj members =>
      cases segment with
      | key name => exact wellFormed_of_mem hwell.2 (Entries.mem_of_get? hstep)
      | index n => cases hstep
  | arr items =>
      cases segment with
      | key name => cases hstep
      | index n => exact wellFormed_of_mem_items hwell (List.mem_of_getElem? hstep)
  | _ => cases segment <;> cases hstep

/-- What stands at a place of a well-formed value is well-formed. -/
theorem wellFormed_of_at? {v w : Json} {place : List Segment} (hwell : v.WellFormed)
    (hat : v.at? place = some w) : w.WellFormed := by
  induction place generalizing v with
  | nil =>
      cases hat
      exact hwell
  | cons segment place ih =>
      obtain ⟨u, hstep, hrest⟩ := Option.bind_eq_some_iff.mp hat
      exact ih (wellFormed_of_step? hwell hstep) hrest

end StateFlow.Json
