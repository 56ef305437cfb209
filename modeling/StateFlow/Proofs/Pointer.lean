import Mathlib.Data.List.Infix
import StateFlow.Json.Pointer

/-!
# Pointers and places

The text of a step has no slash in it, so a pointer can be taken apart at its slashes again, and the
names of members can be read off its steps.  `pointsInto_iff` says of two pointers that one leads
into what the other one leads to exactly if its steps begin with those of the other.
-/

namespace StateFlow.Json

/-! ## Steps -/

/-- The name that a step of a pointer stands for, if every tilde in it opens an escape. -/
def token? : List Char → Option (List Char)
  | [] => some []
  | '~' :: '0' :: rest => (token? rest).map ('~' :: ·)
  | '~' :: '1' :: rest => (token? rest).map ('/' :: ·)
  | '~' :: _ => none
  | c :: rest => (token? rest).map (c :: ·)

theorem token?_flatMap (text : List Char) : token? (text.flatMap pointerChar) = some text := by
  induction text with
  | nil => rfl
  | cons c text ih =>
      rw [List.flatMap_cons, pointerChar]
      split
      · next htilde => simp [token?, ih, htilde]
      · split
        · next hslash => simp [token?, ih, hslash]
        · next htilde _ => simp [token?, ih, htilde]

theorem text_key_inj {a b : String} : (Segment.key a).text = (Segment.key b).text ↔ a = b := by
  refine ⟨fun heq => ?_, congrArg fun name => (Segment.key name).text⟩
  have hlist := congrArg token? heq
  rw [Segment.text, Segment.text, token?_flatMap, token?_flatMap, Option.some.injEq] at hlist
  exact String.toList_inj.mp hlist

theorem slash_not_mem_text (segment : Segment) : '/' ∉ segment.text := by
  cases segment with
  | key name =>
      rw [Segment.text, List.mem_flatMap]
      rintro ⟨c, -, hc⟩
      rw [pointerChar] at hc
      split at hc
      · simp at hc
      · split at hc
        · simp at hc
        · next hslash => exact hslash (List.mem_singleton.mp hc).symm
  | index n =>
      intro hmem
      have hdigit := Nat.isDigit_of_mem_toDigits (by decide) (by decide) hmem
      cases hdigit

/-! ## Pointers -/

def Opens (text : List Char) : Prop := ∀ c ∈ text.head?, c = '/'

def pointerChars (path : List Segment) : List Char :=
  path.flatMap fun segment => '/' :: segment.text

theorem opens_pointerChars (path : List Segment) : Opens (pointerChars path) := by
  cases path <;> simp [Opens, pointerChars]

theorem takeWhile_append_opens {step rest : List Char} (hstep : '/' ∉ step) (hrest : Opens rest) :
    (step ++ rest).takeWhile (· ≠ '/') = step := by
  have hall : ∀ c ∈ step, decide (c ≠ '/') = true := by
    intro c hc
    exact decide_eq_true fun heq => hstep (heq ▸ hc)
  have hnone : rest.takeWhile (· ≠ '/') = [] := by
    cases rest with
    | nil => rfl
    | cons c rest => simp [hrest c rfl]
  rw [List.takeWhile_append_of_pos hall, hnone, List.append_nil]

/-- Where a step ends is decided by the next slash. -/
theorem step_append_inj {a b x y : List Char} (ha : '/' ∉ a) (hb : '/' ∉ b) (hx : Opens x)
    (hy : Opens y) : a ++ x = b ++ y ↔ a = b ∧ x = y := by
  refine ⟨fun heq => ?_, fun ⟨hab, hxy⟩ => by rw [hab, hxy]⟩
  have hab : a = b := by
    rw [← takeWhile_append_opens ha hx, heq, takeWhile_append_opens hb hy]
  subst hab
  exact ⟨rfl, List.append_cancel_left heq⟩

theorem pointerChars_eq_append {place path : List Segment} :
    (∃ rest, Opens rest ∧ pointerChars path = pointerChars place ++ rest) ↔
      place.map Segment.text <+: path.map Segment.text := by
  induction place generalizing path with
  | nil =>
      simp only [List.map_nil, List.nil_prefix, iff_true]
      exact ⟨pointerChars path, opens_pointerChars path, rfl⟩
  | cons segment place ih =>
      cases path with
      | nil => simp [pointerChars]
      | cons first path =>
          rw [List.map_cons, List.map_cons, List.cons_prefix_cons, ← ih]
          constructor
          · rintro ⟨rest, hrest, heq⟩
            have hopens : Opens (pointerChars place ++ rest) := by
              cases place with
              | nil => exact hrest
              | cons _ _ => simp [Opens, pointerChars]
            have heq : first.text ++ pointerChars path =
                segment.text ++ (pointerChars place ++ rest) := by
              simpa [pointerChars] using heq
            rw [step_append_inj (slash_not_mem_text _) (slash_not_mem_text _)
              (opens_pointerChars _) hopens] at heq
            exact ⟨heq.1.symm, rest, hrest, heq.2⟩
          · rintro ⟨htext, rest, hrest, heq⟩
            refine ⟨rest, hrest, ?_⟩
            simp only [pointerChars, List.flatMap_cons, List.append_assoc] at heq ⊢
            rw [heq, htext]

/-- A pointer leads to a place, or to somewhere inside it. -/
def PointsInto (place pointer : String) : Prop :=
  pointer = place ∨ place.toList ++ ['/'] <+: pointer.toList

theorem pointsInto_iff {place path : List Segment} :
    PointsInto (pointer place) (pointer path) ↔
      place.map Segment.text <+: path.map Segment.text := by
  rw [← pointerChars_eq_append, PointsInto, pointer, pointer, String.ofList_inj,
    String.toList_ofList, String.toList_ofList]
  change pointerChars path = pointerChars place ∨ pointerChars place ++ ['/'] <+: pointerChars path
    ↔ _
  constructor
  · rintro (heq | ⟨rest, heq⟩)
    · exact ⟨[], by simp [Opens], by rw [heq, List.append_nil]⟩
    · exact ⟨'/' :: rest, by simp [Opens], by rw [← heq, List.append_assoc, List.singleton_append]⟩
  · rintro ⟨rest, hrest, heq⟩
    cases rest with
    | nil => exact Or.inl (by rw [heq, List.append_nil])
    | cons c rest =>
        rw [hrest c rfl] at heq
        exact Or.inr ⟨rest, by rw [heq, List.append_assoc, List.singleton_append]⟩

end StateFlow.Json
