import StateFlow.Json.Members
import StateFlow.Proofs.Rewritten
import StateFlow.Proofs.Shape

/-!
# Records that are read and written

A record that has been read gives one written entry for each member it found.  `Writes` says so for
some of the members of an object: the entries stand under known names in their order, each rewrites
the value of a member, and no member that holds a value is lost.  Records are put together from such
parts (`Writes.append`), and a closed schema makes the whole of them an object that is rewritten
(`Writes.rewritten_obj`).
-/

namespace StateFlow.Json

open StateFlow.Playbook

variable {α β : Type}

/-! ## Reading -/

namespace Reading

def Gives (r : Reading α) (x : α) : Prop := r = (.ok x : Except Failure α)

@[simp] theorem gives_pure {x y : α} : (pure x : Reading α).Gives y ↔ x = y :=
  ⟨fun h => Except.ok.inj h, fun h => congrArg Except.ok h⟩

@[simp] theorem gives_seq {f : Reading (α → β)} {x : Reading α} {y : β} :
    (f <*> x).Gives y ↔ ∃ g a, f.Gives g ∧ x.Gives a ∧ g a = y := by
  constructor
  · intro h
    change Reading.seq f x = _ at h
    unfold Reading.seq at h
    split at h
    · next g a => exact ⟨g, a, rfl, rfl, Except.ok.inj h⟩
    · cases h
    · cases h
    · cases h
  · rintro ⟨g, a, rfl, rfl, rfl⟩
    rfl

@[simp] theorem gives_map {f : α → β} {x : Reading α} {y : β} :
    (f <$> x).Gives y ↔ ∃ a, x.Gives a ∧ f a = y := by
  change (pure f <*> x).Gives y ↔ _
  simp

theorem toExcept_eq_ok {r : Reading α} {x : α} : r.toExcept = .ok x ↔ r.Gives x := by
  cases r with
  | error e => simp [toExcept, Gives]
  | ok y => exact (iff_of_eq (Except.ok.injEq y x)).trans gives_pure.symm

def Succeeds (r : Reading α) : Prop := ∃ x, r.Gives x

@[simp] theorem succeeds_pure (x : α) : (pure x : Reading α).Succeeds := ⟨x, rfl⟩

@[simp] theorem succeeds_seq {f : Reading (α → β)} {x : Reading α} :
    (f <*> x).Succeeds ↔ f.Succeeds ∧ x.Succeeds := by
  simp only [Succeeds, gives_seq]
  constructor
  · rintro ⟨_, g, a, hg, ha, -⟩
    exact ⟨⟨g, hg⟩, a, ha⟩
  · rintro ⟨⟨g, hg⟩, a, ha⟩
    exact ⟨g a, g, a, hg, ha, rfl⟩

@[simp] theorem succeeds_map {f : α → β} {x : Reading α} : (f <$> x).Succeeds ↔ x.Succeeds := by
  change (pure f <*> x).Succeeds ↔ _
  simp

theorem exists_toExcept_eq_ok {r : Reading α} : (∃ x, r.toExcept = .ok x) ↔ r.Succeeds :=
  exists_congr fun _ => toExcept_eq_ok

def Fails (r : Reading α) (m : Mismatch) : Prop :=
  ∃ place, r = (.error ⟨place, m⟩ : Except Failure α)

theorem fails_seq_left {f : Reading (α → β)} {x : Reading α} {m : Mismatch} (hf : f.Fails m)
    (hx : x.Succeeds) : (f <*> x).Fails m := by
  obtain ⟨place, rfl⟩ := hf
  obtain ⟨a, rfl⟩ := hx
  exact ⟨place, rfl⟩

theorem fails_seq_right {f : Reading (α → β)} {x : Reading α} {m : Mismatch} (hf : f.Succeeds)
    (hx : x.Fails m) : (f <*> x).Fails m := by
  obtain ⟨g, rfl⟩ := hf
  obtain ⟨place, rfl⟩ := hx
  exact ⟨place, rfl⟩

theorem fails_map {f : α → β} {x : Reading α} {m : Mismatch} (hx : x.Fails m) :
    (f <$> x).Fails m :=
  fails_seq_right (succeeds_pure f) hx

theorem toExcept_of_fails {r : Reading α} {m : Mismatch} (hr : r.Fails m) :
    r.toExcept = .error m := by
  obtain ⟨place, rfl⟩ := hr
  rfl

end Reading

namespace Members

theorem find?_eq_none {members : Entries α} {key : String} :
    find? members key = none ↔ Entries.get? members key = none := by
  induction members with
  | nil => simp [find?, Entries.get?]
  | cons entry members ih =>
      rw [find?, Entries.get?]
      split
      · simp
      · rw [Option.map_eq_none_iff, ih]

theorem get?_of_find? {members : Entries α} {key : String} {found : Nat × α}
    (hfind : find? members key = some found) : Entries.get? members key = some found.2 := by
  induction members generalizing found with
  | nil => cases hfind
  | cons entry members ih =>
      rw [find?] at hfind
      rw [Entries.get?]
      split at hfind
      · next heq =>
          cases hfind
          rw [if_pos heq]
      · next hne =>
          obtain ⟨inside, hinside, rfl⟩ := Option.map_eq_some_iff.mp hfind
          rw [if_neg hne, ih hinside]

theorem readAt_gives {read : α → Except Mismatch β} {found : Nat × α} {x : β} :
    (readAt read found).Gives x ↔ read found.2 = .ok x := by
  rw [readAt]
  cases read found.2 with
  | error e => simp [Reading.Gives]
  | ok y => exact Reading.gives_pure.trans (iff_of_eq (Except.ok.injEq y x)).symm

theorem required_gives {members : Entries α} {key : String} {read : α → Except Mismatch β} {x : β} :
    (required members key read).Gives x ↔
      ∃ value, Entries.get? members key = some value ∧ read value = .ok x := by
  rw [required]
  split
  · next found hfound => simp [readAt_gives, get?_of_find? hfound]
  · next hnone => simp [Reading.Gives, find?_eq_none.mp hnone]

theorem optional_gives {members : Entries α} {key : String}
    {read : α → Except Mismatch (Option β)} {x : Option β} :
    (optional members key read).Gives x ↔
      (Entries.get? members key = none ∧ x = none) ∨
        ∃ value, Entries.get? members key = some value ∧ read value = .ok x := by
  rw [optional]
  split
  · next found hfound => simp [readAt_gives, get?_of_find? hfound]
  · next hnone => simp [find?_eq_none.mp hnone, eq_comm]

theorem required_succeeds {members : Entries α} {key : String} {read : α → Except Mismatch β} :
    (required members key read).Succeeds ↔
      ∃ value, Entries.get? members key = some value ∧ ∃ x, read value = .ok x := by
  simp only [Reading.Succeeds, required_gives]
  rw [exists_comm]
  simp

theorem optional_succeeds {members : Entries α} {key : String}
    {read : α → Except Mismatch (Option β)} :
    (optional members key read).Succeeds ↔
      ∀ value, Entries.get? members key = some value → ∃ x, read value = .ok x := by
  simp only [Reading.Succeeds, optional_gives]
  cases hget : Entries.get? members key with
  | none => simp
  | some value => simp

theorem optional_fails {members : Entries α} {key : String}
    {read : α → Except Mismatch (Option β)} {value : α} {m : Mismatch}
    (hvalue : Entries.get? members key = some value) (hread : read value = .error m) :
    (optional members key read).Fails m := by
  rw [optional]
  split
  · next found hfound =>
      rw [get?_of_find? hfound] at hvalue
      cases hvalue
      exact ⟨found.1, by rw [readAt, hread]⟩
  · next hnone =>
      rw [find?_eq_none.mp hnone] at hvalue
      cases hvalue

end Members

/-! ## Members -/

def MustRead (members : Entries Json) (key : String) (read : Json → Except Mismatch β) (x : β) :
    Prop :=
  ∃ v, Entries.get? members key = some v ∧ read v = .ok x

/-- A member that may be absent or `null` reads as `x`. -/
def MayRead (members : Entries Json) (key : String) (read : Json → Except Mismatch β)
    (x : Option β) : Prop :=
  (Entries.get? members key = none ∧ x = none) ∨
    ∃ v, Entries.get? members key = some v ∧ readOptional read v = .ok x

theorem readOptional_eq_none {read : Json → Except Mismatch β} {v : Json} :
    readOptional read v = .ok none ↔ v = .null := by
  unfold readOptional
  split
  · simp
  · next hnull =>
      refine ⟨fun h => ?_, fun h => absurd h hnull⟩
      cases hread : read v with
      | error e => simp [hread] at h
      | ok x => simp [hread] at h

theorem readOptional_of_ne_null {read : Json → Except Mismatch β} {v : Json} (hv : v ≠ .null) :
    readOptional read v = some <$> read v := by
  cases v with
  | null => exact absurd rfl hv
  | _ => rfl

theorem readOptional_eq_some {read : Json → Except Mismatch β} {v : Json} {x : β}
    (h : readOptional read v = .ok (some x)) : read v = .ok x := by
  unfold readOptional at h
  split at h
  · cases h
  · cases hread : read v with
    | error e => simp [hread] at h
    | ok y => simpa [hread] using h

/-! ## Writing -/

variable {slot : Slot} {members : Entries Json} {names : List String} {entries : Entries Json}

/-- Entries written for the members of an object under some names. -/
structure Writes (slot : Slot) (members : Entries Json) (names : List String)
    (entries : Entries Json) : Prop where
  keys : (Entries.keys entries).Sublist names
  rewritten : ∀ entry ∈ entries, ∃ v, (entry.1, v) ∈ members ∧
    Rewritten (slot.member entry.1) v entry.2
  covers : ∀ key ∈ names, ∀ v, Entries.get? members key = some v → v ≠ .null →
    key ∈ Entries.keys entries

theorem Writes.append {more : List String} {others : Entries Json}
    (hfirst : Writes slot members names entries) (hsecond : Writes slot members more others) :
    Writes slot members (names ++ more) (entries ++ others) where
  keys := by
    rw [Entries.keys_append]
    exact hfirst.keys.append hsecond.keys
  rewritten entry hentry :=
    (List.mem_append.mp hentry).elim (hfirst.rewritten entry) (hsecond.rewritten entry)
  covers key hkey v hv hnull := by
    rw [Entries.keys_append, List.mem_append]
    exact (List.mem_append.mp hkey).imp (fun h => hfirst.covers key h v hv hnull)
      fun h => hsecond.covers key h v hv hnull

theorem Writes.single {key : String} {v w : Json} (hv : Entries.get? members key = some v)
    (hrewritten : Rewritten (slot.member key) v w) : Writes slot members [key] [(key, w)] where
  keys := List.Sublist.refl _
  rewritten := by
    rintro entry hentry
    rw [List.mem_singleton] at hentry
    subst hentry
    exact ⟨v, Entries.mem_of_get? hv, hrewritten⟩
  covers key' hkey' _ _ _ := hkey'

theorem Writes.required {key : String} {read : Json → Except Mismatch β} {write : β → Json} {x : β}
    (hread : MustRead members key read x)
    (hrewritten : ∀ v x, Entries.get? members key = some v → read v = .ok x →
      Rewritten (slot.member key) v (write x)) :
    Writes slot members [key] [(key, write x)] := by
  obtain ⟨v, hv, hx⟩ := hread
  exact .single hv (hrewritten v x hv hx)

theorem Writes.optional {key : String} {read : Json → Except Mismatch β} {write : β → Json}
    {x : Option β} (hread : MayRead members key read x)
    (hrewritten : ∀ v x, Entries.get? members key = some v → read v = .ok x →
      Rewritten (slot.member key) v (write x)) :
    Writes slot members [key] (optionalEntry key write x) := by
  cases x with
  | some x =>
      rcases hread with ⟨-, hnone⟩ | ⟨v, hv, hx⟩
      · cases hnone
      · exact .single hv (hrewritten v x hv (readOptional_eq_some hx))
  | none =>
      refine ⟨by simp [optionalEntry], by simp [optionalEntry], ?_⟩
      intro key' hkey' v hv hnull
      rw [List.mem_singleton.mp hkey'] at hv
      rcases hread with ⟨hnone, -⟩ | ⟨v', hv', hx⟩
      · rw [hnone] at hv
        cases hv
      · rw [hv] at hv'
        cases hv'
        exact absurd (readOptional_eq_none.mp hx) hnull

/-! ## Closed objects -/

open StateFlow.Schema

mutual

/-- Whether a schema is sure to refuse `null`. -/
def rejectsNull : Schema → Bool
  | .type _ => true
  | .const _ => true
  | .enum _ => true
  | .all parts => rejectsNullSome parts
  | .anyOf parts => rejectsNullEach parts
  | _ => false

def rejectsNullSome : List Schema → Bool
  | [] => false
  | schema :: rest => rejectsNull schema || rejectsNullSome rest

def rejectsNullEach : List Schema → Bool
  | [] => true
  | schema :: rest => rejectsNull schema && rejectsNullEach rest

end

mutual

theorem not_accepts_null {target : Schema} : (schema : Schema) → rejectsNull schema = true →
    ¬ Accepts target schema .null
  | .type name, _ => by
      rw [accepts_type]
      cases name <;> simp [TypeName.accepts]
  | .const value, _ => by
      rw [accepts_const]
      cases value <;> simp [Constant.accepts]
  | .enum values, _ => by
      rw [accepts_enum]
      rintro ⟨value, -, hvalue⟩
      cases value <;> simp [Constant.accepts] at hvalue
  | .all parts, hrejects => by
      rw [accepts_all]
      exact not_accepts_null_some parts hrejects
  | .anyOf parts, hrejects => by
      rw [accepts_anyOf]
      rintro ⟨part, hpart, haccepts⟩
      exact not_accepts_null_each parts hrejects part hpart haccepts

theorem not_accepts_null_some {target : Schema} : (parts : List Schema) →
    rejectsNullSome parts = true → ¬ ∀ part ∈ parts, Accepts target part .null
  | schema :: rest, hrejects => by
      rw [rejectsNullSome, Bool.or_eq_true] at hrejects
      rw [List.forall_mem_cons]
      rintro ⟨hschema, hrest⟩
      exact hrejects.elim (fun h => not_accepts_null schema h hschema)
        fun h => not_accepts_null_some rest h hrest

theorem not_accepts_null_each {target : Schema} : (parts : List Schema) →
    rejectsNullEach parts = true → ∀ part ∈ parts, ¬ Accepts target part .null
  | schema :: rest, hrejects, part, hpart => by
      rw [rejectsNullEach, Bool.and_eq_true] at hrejects
      rcases List.mem_cons.mp hpart with heq | hrest
      · rw [heq]
        exact not_accepts_null schema hrejects.1
      · exact not_accepts_null_each rest hrejects.2 part hrest

end

def membersRejectNull (known : Entries Inner) : Bool :=
  known.all fun entry =>
    match entry.2 with
    | .schema schema => rejectsNull schema
    | .recur => false

theorem ne_null_of_accepts {target : Schema} {known : Entries Inner}
    (hnull : membersRejectNull known = true) {key : String} {inner : Inner}
    (hinner : Entries.get? known key = some inner) {v : Json} (hv : inner.Accepts target v) :
    v ≠ .null := by
  rintro rfl
  have hrejects := List.all_eq_true.mp hnull _ (Entries.mem_of_get? hinner)
  cases inner with
  | schema schema => exact not_accepts_null schema hrejects hv
  | recur => cases hrejects

/-- Entries for all the names that a closed schema knows make an object that is rewritten. -/
theorem Writes.rewritten_obj {target : Schema} {known : Entries Inner}
    (hwrites : Writes slot members names entries) (hnodup : names.Nodup)
    (hknown : (Entries.keys known).all (names.contains ·) = true)
    (hnull : membersRejectNull known = true)
    (hclosed : Accepts target (.closed known) (.obj members)) :
    Rewritten slot (.obj members) (.obj entries) := by
  rw [accepts_closed] at hclosed
  refine Rewritten.of_members hwrites.rewritten (fun key => ⟨fun hkey => ?_, fun hkey => ?_⟩)
    fun _ => hwrites.keys.nodup hnodup
  · obtain ⟨v, hv⟩ := Entries.mem_keys_iff_get?.mp hkey
    obtain ⟨inner, hinner, haccepts⟩ := hclosed _ (Entries.mem_of_get? hv)
    have hname : key ∈ names := by
      simpa using List.all_eq_true.mp hknown key (Entries.mem_keys_iff_get?.mpr ⟨inner, hinner⟩)
    exact hwrites.covers key hname v hv (ne_null_of_accepts hnull hinner haccepts)
  · obtain ⟨w, hw⟩ := Entries.mem_keys_iff_get?.mp hkey
    obtain ⟨v, hv, -⟩ := hwrites.rewritten _ (Entries.mem_of_get? hw)
    exact Entries.mem_keys_of_mem hv

/-! ## Values -/

theorem readString_eq_ok {v : Json} {x : String} (hread : readString v = .ok x) : v = .str x := by
  cases v with
  | str text => cases hread; rfl
  | _ => cases hread

theorem rewritten_string {v : Json} {x : String} (hread : readString v = .ok x) :
    Rewritten slot v (.str x) := by
  rw [readString_eq_ok hread]
  exact .same _ _

theorem rewritten_bool {v : Json} {x : Bool} (hread : readBool v = .ok x) :
    Rewritten slot v (.bool x) := by
  cases v with
  | bool value => cases hread; exact .same _ _
  | _ => cases hread

theorem rewritten_number {v : Json} {x : Number} (hread : readNumber v = .ok x) :
    Rewritten slot v (.num x) := by
  cases v with
  | num value => cases hread; exact .same _ _
  | _ => cases hread

theorem rewritten_any {v x : Json} (hread : readAny v = .ok x) : Rewritten slot v (id x) := by
  cases hread
  exact .same _ _

theorem readWord_eq_ok {v : Json} {x : UInt64} (hread : readWord v = .ok x) :
    ∃ n, v = .num n ∧ n.toWord? = some x := by
  cases v with
  | num n =>
      rw [readWord] at hread
      split at hread
      · next word hword =>
          cases hread
          exact ⟨n, rfl, hword⟩
      · cases hread
  | _ => cases hread

theorem rewritten_concurrency {v : Json} {x : UInt64} (hread : readWord v = .ok x) :
    Rewritten .concurrency v (.ofWord x) := by
  obtain ⟨n, rfl, hword⟩ := readWord_eq_ok hread
  exact .concurrency hword

theorem mapM_eq_ok {ε : Type} {f : α → Except ε β} {items : List α} {results : List β} :
    items.mapM f = .ok results ↔
      List.Forall₂ (fun item result => f item = .ok result) items results := by
  induction items generalizing results with
  | nil => simp [pure, Except.pure, eq_comm]
  | cons item items ih =>
      rw [List.mapM_cons]
      cases hitem : f item with
      | error e => simp [bind, Except.bind, List.forall₂_cons_left_iff, hitem]
      | ok result =>
          cases hitems : items.mapM f with
          | error e => simp [bind, Except.bind, List.forall₂_cons_left_iff, hitem, hitems, ← ih]
          | ok rest =>
              simp [bind, Except.bind, pure, Except.pure, List.forall₂_cons_left_iff, hitem, ← ih,
                hitems, eq_comm]

theorem forall_mem_of_forall₂ {R : α → β → Prop} {P : β → Prop} {items : List α}
    {results : List β} (hpairs : List.Forall₂ R items results)
    (hitems : ∀ item ∈ items, ∀ result, R item result → P result) :
    ∀ result ∈ results, P result := by
  induction hpairs with
  | nil => simp
  | cons hfirst hrest ih =>
      rw [List.forall_mem_cons] at hitems ⊢
      exact ⟨hitems.1 _ hfirst, ih hitems.2⟩

theorem rewritten_list {read : Json → Except Mismatch β} {write : β → Json} {v : Json} {xs : List β}
    (hread : readList read v = .ok xs)
    (hitems : ∀ items, v = .arr items → ∀ item ∈ items, ∀ x, read item = .ok x →
      Rewritten slot.item item (write x)) :
    Rewritten slot v (Json.ofList write xs) := by
  cases v with
  | arr items =>
      rw [readList, mapM_eq_ok] at hread
      refine Rewritten.of_forall₂ ?_
      rw [List.forall₂_map_right_iff]
      exact (List.forall₂_and_left _ _).mpr ⟨hitems items rfl, hread⟩ |>.imp
        fun item x h => h.1 x h.2
  | _ => cases hread

end StateFlow.Json
