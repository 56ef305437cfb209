import StateFlow.Proofs.DefinitionText
import StateFlow.Proofs.JsonText
import StateFlow.Proofs.Kept

/-!
# What a value consists of

`Consists` says of a value that its texts and its members are of some sort, that its numbers are
integers and that its objects name each member once.  Two sorts matter here.  A value is `Unmarked`
if the literal marker occurs nowhere in it; what is kept of such a value is unmarked too.  A value
is `Readable` if the literal pass finds nothing in it to unwrap, and its text then reads back as the
value (`parse_strip_of_readable`).
-/

namespace StateFlow.Json

variable {text : String → Prop} {member : String → Json → Prop}

mutual

/-- All texts and all members are of a sort, all numbers are integers, and objects name each member
once. -/
def Consists (text : String → Prop) (member : String → Json → Prop) : Json → Prop
  | .str t => text t
  | .num n => ∀ x, n ≠ .float x
  | .arr items => ConsistsItems text member items
  | .obj members => Entries.Distinct members ∧ ConsistsMembers text member members
  | _ => True

def ConsistsItems (text : String → Prop) (member : String → Json → Prop) : List Json → Prop
  | [] => True
  | v :: rest => Consists text member v ∧ ConsistsItems text member rest

def ConsistsMembers (text : String → Prop) (member : String → Json → Prop) :
    List (String × Json) → Prop
  | [] => True
  | (k, v) :: rest => (member k v ∧ Consists text member v) ∧ ConsistsMembers text member rest

end

@[simp] theorem consists_null : Consists text member .null := trivial

@[simp] theorem consists_bool (value : Bool) : Consists text member (.bool value) := trivial

@[simp] theorem consists_str {t : String} : Consists text member (.str t) ↔ text t := Iff.rfl

@[simp] theorem consists_num {n : Number} :
    Consists text member (.num n) ↔ ∀ x, n ≠ .float x := Iff.rfl

theorem consists_ofWord (x : UInt64) : Consists text member (.ofWord x) := by
  simp [ofWord, Number.ofWord]

@[simp] theorem consists_arr {items : List Json} :
    Consists text member (.arr items) ↔ ∀ item ∈ items, Consists text member item := by
  rw [Consists]
  induction items with
  | nil => simp [ConsistsItems]
  | cons item items ih => rw [ConsistsItems, ih, List.forall_mem_cons]

@[simp] theorem consists_obj {members : Entries Json} :
    Consists text member (.obj members) ↔ Entries.Distinct members ∧
      ∀ entry ∈ members, member entry.1 entry.2 ∧ Consists text member entry.2 := by
  rw [Consists]
  refine and_congr Iff.rfl ?_
  induction members with
  | nil => simp [ConsistsMembers]
  | cons entry members ih => rw [ConsistsMembers, ih, List.forall_mem_cons]

mutual

theorem Consists.mono {text' : String → Prop} {member' : String → Json → Prop}
    (htext : ∀ t, text t → text' t) (hmember : ∀ k v, member k v → member' k v) : (v : Json) →
    Consists text member v → Consists text' member' v
  | .null, _ | .bool _, _ => trivial
  | .num _, h => h
  | .str t, h => htext t h
  | .arr items, h => ConsistsItems.mono htext hmember items h
  | .obj members, h => ⟨h.1, ConsistsMembers.mono htext hmember members h.2⟩

theorem ConsistsItems.mono {text' : String → Prop} {member' : String → Json → Prop}
    (htext : ∀ t, text t → text' t) (hmember : ∀ k v, member k v → member' k v) :
    (items : List Json) → ConsistsItems text member items → ConsistsItems text' member' items
  | [], _ => trivial
  | v :: rest, h => ⟨Consists.mono htext hmember v h.1, ConsistsItems.mono htext hmember rest h.2⟩

theorem ConsistsMembers.mono {text' : String → Prop} {member' : String → Json → Prop}
    (htext : ∀ t, text t → text' t) (hmember : ∀ k v, member k v → member' k v) :
    (members : List (String × Json)) →
    ConsistsMembers text member members → ConsistsMembers text' member' members
  | [], _ => trivial
  | (k, v) :: rest, h => ⟨⟨hmember k v h.1.1, Consists.mono htext hmember v h.1.2⟩,
      ConsistsMembers.mono htext hmember rest h.2⟩

end

mutual

theorem consists_of_allTexts {sort : String → Prop} : (v : Json) → v.WellFormed →
    (∀ x, .float x ∉ v.numbers) → (∀ t ∈ v.allTexts, sort t) → Consists sort (fun k _ => sort k) v
  | .null, _, _, _ | .bool _, _, _, _ => trivial
  | .num n, _, hints, _ => fun x hx => hints x (by simp [numbers, hx])
  | .str t, _, _, htexts => htexts t (by simp [allTexts])
  | .arr items, hwell, hints, htexts => consistsItems_of_allTexts items hwell hints htexts
  | .obj members, hwell, hints, htexts =>
      ⟨hwell.1, consistsMembers_of_allTexts members hwell.2 hints htexts⟩

theorem consistsItems_of_allTexts {sort : String → Prop} : (items : List Json) →
    WellFormedItems items → (∀ x, .float x ∉ numbersItems items) →
    (∀ t ∈ allTextsItems items, sort t) → ConsistsItems sort (fun k _ => sort k) items
  | [], _, _, _ => trivial
  | v :: rest, hwell, hints, htexts => by
      simp only [numbersItems, List.mem_append, not_or, forall_and] at hints
      rw [allTextsItems, List.forall_mem_append] at htexts
      exact ⟨consists_of_allTexts v hwell.1 hints.1 htexts.1,
        consistsItems_of_allTexts rest hwell.2 hints.2 htexts.2⟩

theorem consistsMembers_of_allTexts {sort : String → Prop} : (members : List (String × Json)) →
    WellFormedMembers members → (∀ x, .float x ∉ numbersMembers members) →
    (∀ t ∈ allTextsMembers members, sort t) → ConsistsMembers sort (fun k _ => sort k) members
  | [], _, _, _ => trivial
  | (k, v) :: rest, hwell, hints, htexts => by
      simp only [numbersMembers, List.mem_append, not_or, forall_and] at hints
      rw [allTextsMembers, List.forall_mem_append, List.forall_mem_cons] at htexts
      exact ⟨⟨htexts.1.1, consists_of_allTexts v hwell.1 hints.1 htexts.1.2⟩,
        consistsMembers_of_allTexts rest hwell.2 hints.2 htexts.2⟩

end

end StateFlow.Json

namespace StateFlow.Literal

open StateFlow.Json

variable {marker : String}

/-! ## Unmarked values -/

def Unmarked (marker : String) : Json → Prop :=
  Consists (fun t => ¬ marker.toList <:+: t.toList) fun k _ => ¬ marker.toList <:+: k.toList

/-- What is kept of an unmarked value is unmarked. -/
theorem Unmarked.kept {u w : Json} (hkept : Kept u w) (hu : Unmarked marker u) :
    Unmarked marker w := by
  induction hkept with
  | same v => exact hu
  | word hword => exact consists_ofWord _
  | arr hlength hitems ih =>
      rw [Unmarked, consists_arr] at hu ⊢
      intro item hitem
      obtain ⟨u, hmem, hzip⟩ := exists_mem_zip hlength hitem
      exact ih u item hzip (hu u hmem)
  | obj source hmember hkept hkeys hdistinct ih =>
      rw [Unmarked, consists_obj] at hu ⊢
      refine ⟨hdistinct hu.1, fun entry hentry => ?_⟩
      obtain ⟨hname, hvalue⟩ := hu.2 _ (hmember entry hentry)
      exact ⟨hname, ih entry hentry hvalue⟩

/-! ## Readable values -/

def Readable (marker : String) : Json → Prop :=
  Consists (fun t => ¬ Wraps marker t.toList)
    fun k v => ¬ Wraps marker k.toList ∧ (Opens marker k.toList → ¬ EndsClosed v)

theorem opens_of_wraps {text : List Char} (hwraps : Wraps marker text) : Opens marker text := by
  obtain ⟨inner, hsuffix⟩ := hwraps
  rw [List.append_assoc] at hsuffix
  exact (List.prefix_append _ _).isInfix.trans hsuffix.isInfix

theorem infix_of_opens {text : List Char} (hopens : Opens marker text) :
    marker.toList <:+: text := by
  have hmarker : marker.toList <:+: marker.toList ++ ['('] := (List.prefix_append _ _).isInfix
  rcases List.infix_cons_iff.mp hopens with hprefix | hwithin
  · exact hmarker.trans (List.cons_prefix_cons.mp hprefix).2.isInfix
  · exact hmarker.trans ((List.suffix_cons _ _).isInfix.trans hwithin)

theorem Unmarked.readable {v : Json} (hv : Unmarked marker v) : Readable marker v := by
  have hopens : ∀ t : String, ¬ marker.toList <:+: t.toList → ¬ Opens marker t.toList :=
    fun t ht hopens => ht (infix_of_opens hopens)
  refine Consists.mono (fun t ht hwraps => hopens t ht (opens_of_wraps hwraps)) (fun k v hk => ?_)
    v hv
  exact ⟨fun hwraps => hopens k hk (opens_of_wraps hwraps), fun h => absurd h (hopens k hk)⟩

mutual

theorem Readable.laws : (v : Json) → Readable marker v →
    v.WellFormed ∧ (∀ x, .float x ∉ v.numbers) ∧ ¬ Wrapped marker v
  | .null, _ | .bool _, _ => by simp [WellFormed, numbers, Wrapped]
  | .num n, h => by
      refine ⟨by simp [WellFormed], fun x hx => ?_, by simp [Wrapped]⟩
      rw [numbers, List.mem_singleton] at hx
      exact h x hx.symm
  | .str t, h => by
      refine ⟨by simp [WellFormed], by simp [numbers], ?_⟩
      rw [Wrapped]
      exact h
  | .arr items, h => by
      rw [WellFormed, numbers, Wrapped]
      exact Readable.laws_items items h
  | .obj members, h => by
      obtain ⟨hwell, hints, hwrapped⟩ := Readable.laws_members members h.2
      rw [WellFormed, numbers, Wrapped]
      exact ⟨⟨h.1, hwell⟩, hints, hwrapped⟩

theorem Readable.laws_items : (items : List Json) →
    ConsistsItems (fun t => ¬ Wraps marker t.toList)
      (fun k v => ¬ Wraps marker k.toList ∧ (Opens marker k.toList → ¬ EndsClosed v)) items →
    WellFormedItems items ∧ (∀ x, .float x ∉ numbersItems items) ∧ ¬ WrappedItems marker items
  | [], _ => by simp [WellFormedItems, numbersItems, WrappedItems]
  | v :: rest, h => by
      obtain ⟨hwell, hints, hwrapped⟩ := Readable.laws v h.1
      obtain ⟨hwell', hints', hwrapped'⟩ := Readable.laws_items rest h.2
      simp only [WellFormedItems, numbersItems, WrappedItems, List.mem_append, not_or]
      exact ⟨⟨hwell, hwell'⟩, fun x => ⟨hints x, hints' x⟩, hwrapped, hwrapped'⟩

theorem Readable.laws_members : (members : List (String × Json)) →
    ConsistsMembers (fun t => ¬ Wraps marker t.toList)
      (fun k v => ¬ Wraps marker k.toList ∧ (Opens marker k.toList → ¬ EndsClosed v)) members →
    WellFormedMembers members ∧ (∀ x, .float x ∉ numbersMembers members) ∧
      ¬ WrappedMembers marker members
  | [], _ => by simp [WellFormedMembers, numbersMembers, WrappedMembers]
  | (k, v) :: rest, h => by
      obtain ⟨hwell, hints, hwrapped⟩ := Readable.laws v h.1.2
      obtain ⟨hwell', hints', hwrapped'⟩ := Readable.laws_members rest h.2
      simp only [WellFormedMembers, numbersMembers, WrappedMembers, List.mem_append, not_or,
        not_and]
      exact ⟨⟨hwell, hwell'⟩, fun x => ⟨hints x, hints' x⟩, h.1.1.1, h.1.1.2, hwrapped, hwrapped'⟩

end

/-- A readable value reads back from its text when the literal pass is done with it. -/
theorem parse_strip_of_readable (hplain : Plain marker) (unit : Nat) {v : Json}
    (hv : Readable marker v) (hdepth : v.depth ≤ Reader.maxDepth) :
    parse (String.ofList (strip marker (v.pretty unit))) = .ok v := by
  obtain ⟨hwell, hints, hwrapped⟩ := Readable.laws v hv
  rw [(strip_pretty_eq_self_iff hplain unit v).mpr hwrapped]
  exact parse_prettyText unit hwell hints hdepth

end StateFlow.Literal
