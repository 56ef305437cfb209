import StateFlow.Proofs.Schema

/-!
# What reading and writing keep

A record that is read from an object and written again has the same members in another order, and
whole numbers come out as integers.  `Kept` is this relation between a value and what is written
for it.  A schema that does not count alternatives or look at single members accepts what is kept of
a value it accepts (`similar_of_kept`, `accepts_of_similar`), as long as the schema that references
go to does.
-/

namespace StateFlow

/-! ## Whole numbers -/

namespace Number

variable {n : Number} {x : UInt64}

theorem floor_of_toWord? {n : Binary64} (hword : (Number.float n).toWord? = some x) :
    x.toNat = min n.floor 0xFFFFFFFFFFFFFFFF ∧ (n.isNegative = true → n.floor = 0) := by
  rw [toWord?] at hword
  split at hword
  · cases hword
  · next hrange =>
      simp only [Bool.or_eq_true, not_or, Bool.not_eq_true] at hrange
      obtain ⟨⟨hneg, -⟩, -⟩ := hrange
      cases hword
      refine ⟨?_, fun hnegative => ?_⟩
      · rw [UInt64.toNat_ofNat']
        omega
      · have hzero : n.significand = 0 := by
          simpa [Binary64.ltNat, hnegative, Binary64.isZero] using hneg
        simp [Binary64.floor, hzero]

theorem toNat_of_toWord? {value : Int} {hfits} (hword : (Number.int value hfits).toWord? = some x) :
    (x.toNat : Int) = value := by
  rw [toWord?] at hword
  split at hword
  · cases hword
  · cases hword
    rw [UInt64.toNat_ofNat']
    omega

/-- Bounds from below are kept. -/
theorem ltNat_ofWord (hword : n.toWord? = some x) {bound : Nat}
    (hbound : bound < 0x10000000000000000) (hlt : n.ltNat bound = false) :
    (ofWord x).ltNat bound = false := by
  suffices hle : bound ≤ x.toNat by
    simpa [ofWord, ltNat] using hle
  cases n with
  | int value hfits =>
      have hvalue := toNat_of_toWord? hword
      simp only [ltNat, decide_eq_false_iff_not, Int.not_lt] at hlt
      omega
  | float n =>
      obtain ⟨hx, hnegative⟩ := floor_of_toWord? hword
      have hfloor : bound ≤ n.floor := by
        rw [ltNat, Binary64.ltNat] at hlt
        split at hlt
        · simp only [Bool.or_eq_false_iff, decide_eq_false_iff_not] at hlt
          omega
        · rw [decide_eq_false_iff_not, Nat.not_lt] at hlt
          exact (Nat.le_div_iff_mul_le (Nat.pow_pos (by decide))).mpr hlt
      omega

/-- Bounds from above are kept. -/
theorem gtNat_ofWord (hword : n.toWord? = some x) {bound : Nat} (hgt : n.gtNat bound = false) :
    (ofWord x).gtNat bound = false := by
  suffices hle : x.toNat ≤ bound by
    simpa [ofWord, gtNat] using hle
  cases n with
  | int value hfits =>
      have hvalue := toNat_of_toWord? hword
      simp only [gtNat, decide_eq_false_iff_not, Int.not_lt] at hgt
      omega
  | float n =>
      obtain ⟨hx, hnegative⟩ := floor_of_toWord? hword
      have hfloor : n.floor ≤ bound := by
        by_cases hsign : n.isNegative = true
        · rw [hnegative hsign]
          exact Nat.zero_le bound
        · rw [gtNat, Binary64.gtNat] at hgt
          simp only [hsign, Bool.not_false, Bool.true_and, decide_eq_false_iff_not,
            Nat.not_lt] at hgt
          rw [Nat.mul_comm bound] at hgt
          exact Nat.div_le_of_le_mul hgt
      omega

end Number

namespace Json

/-! ## Values inside values -/

/-- Induction over a value, through the items and members inside it. -/
@[elab_as_elim] theorem inductionOn {motive : Json → Prop} (v : Json) (null : motive .null)
    (bool : ∀ b, motive (.bool b)) (num : ∀ n, motive (.num n)) (str : ∀ text, motive (.str text))
    (arr : ∀ items, (∀ item ∈ items, motive item) → motive (.arr items))
    (obj : ∀ members, (∀ entry ∈ members, motive entry.2) → motive (.obj members)) : motive v := by
  cases v with
  | null => exact null
  | bool b => exact bool b
  | num n => exact num n
  | str text => exact str text
  | arr items => exact arr items fun item _ => inductionOn item null bool num str arr obj
  | obj members => exact obj members fun entry _ => inductionOn entry.2 null bool num str arr obj
termination_by sizeOf v
decreasing_by
  · have hsize := List.sizeOf_lt_of_mem ‹item ∈ items›
    rw [Json.arr.sizeOf_spec]
    omega
  · have hsize := List.sizeOf_lt_of_mem ‹entry ∈ members›
    obtain ⟨name, v⟩ := entry
    rw [Prod.mk.sizeOf_spec] at hsize
    rw [Json.obj.sizeOf_spec]
    simp only
    omega

theorem wellFormed_of_mem {members : Entries Json} {name : String} {v : Json}
    (hwell : WellFormedMembers members) (hmem : (name, v) ∈ members) : v.WellFormed := by
  induction members with
  | nil => cases hmem
  | cons entry rest ih =>
      rcases List.mem_cons.mp hmem with rfl | hrest
      · exact hwell.1
      · exact ih hwell.2 hrest

theorem wellFormed_of_mem_items {items : List Json} {v : Json} (hwell : WellFormedItems items)
    (hmem : v ∈ items) : v.WellFormed := by
  induction items with
  | nil => cases hmem
  | cons item rest ih =>
      rcases List.mem_cons.mp hmem with rfl | hrest
      · exact hwell.1
      · exact ih hwell.2 hrest

/-! ## Kept values -/

theorem exists_mem_zip {α β : Type} {us : List α} {ws : List β}
    (hlength : us.length = ws.length) {w : β} (hw : w ∈ ws) : ∃ u ∈ us, (u, w) ∈ us.zip ws := by
  obtain ⟨i, hi, rfl⟩ := List.mem_iff_getElem.mp hw
  refine ⟨us[i], List.getElem_mem _, List.mem_iff_getElem.mpr ⟨i, by simp; omega, by simp⟩⟩

inductive Kept : Json → Json → Prop
  | same (v : Json) : Kept v v
  | word {n : Number} {x : UInt64} (hword : n.toWord? = some x) : Kept (.num n) (.ofWord x)
  | arr {us ws : List Json} (hlength : us.length = ws.length)
      (hitems : ∀ u w, (u, w) ∈ us.zip ws → Kept u w) : Kept (.arr us) (.arr ws)
  | obj {us ws : Entries Json} (source : ∀ entry ∈ ws, Json)
      (hmember : ∀ entry hentry, (entry.1, source entry hentry) ∈ us)
      (hkept : ∀ entry hentry, Kept (source entry hentry) entry.2)
      (hkeys : ∀ key, key ∈ Entries.keys us ↔ key ∈ Entries.keys ws)
      (hdistinct : Entries.Distinct us → Entries.Distinct ws) : Kept (.obj us) (.obj ws)

end Json

namespace Schema

open StateFlow.Json

def isRequired : Schema → Bool
  | .required _ => true
  | _ => false

mutual

/-- Whether a schema depends only on what is kept of a value: it does not look at single members,
counts nothing but names, and its bounds are words. -/
def robust : Schema → Bool
  | .all parts => robustEach parts
  | .anyOf parts => robustEach parts
  | .oneOf parts => parts.all isRequired
  | .implies _ _ => false
  | .properties _ => false
  | .closed members => robustMembers members
  | .eachMember inner => robustInner inner
  | .eachItem inner => robustInner inner
  | .minimum bound => bound < 0x10000000000000000
  | _ => true

def robustEach : List Schema → Bool
  | [] => true
  | schema :: rest => robust schema && robustEach rest

def robustInner : Inner → Bool
  | .schema schema => robust schema
  | .recur => true

def robustMembers : List (String × Inner) → Bool
  | [] => true
  | (_, inner) :: rest => robustInner inner && robustMembers rest

end

theorem robust_of_get? {members : Entries Inner} (hrobust : robustMembers members = true)
    {key : String} {inner : Inner} (hinner : Entries.get? members key = some inner) :
    robustInner inner = true := by
  induction members with
  | nil => cases hinner
  | cons entry members ih =>
      rw [robustMembers, Bool.and_eq_true] at hrobust
      rw [Entries.get?] at hinner
      split at hinner
      · cases hinner
        exact hrobust.1
      · exact ih hrobust.2 hinner

variable {target : Schema} {u w : Json}

/-- A value has everything by which robust schemas accept another one. -/
structure Similar (target : Schema) (u w : Json) : Prop where
  type : ∀ name : TypeName, name.accepts u = true → name.accepts w = true
  const : ∀ value : Constant, value.accepts u = true → value.accepts w = true
  text : ∀ text, w = .str text → u = .str text
  number : ∀ n', w = .num n' → ∃ n, u = .num n ∧
    (∀ bound < 0x10000000000000000, n.ltNat bound = false → n'.ltNat bound = false) ∧
    ∀ bound, n.gtNat bound = false → n'.gtNat bound = false
  items : ∀ ws, w = .arr ws → ∃ us, u = .arr us ∧ us.length = ws.length ∧
    ∀ inner, robustInner inner = true → (∀ item ∈ us, inner.Accepts target item) →
      ∀ item ∈ ws, inner.Accepts target item
  members : ∀ ws, w = .obj ws → ∃ us, u = .obj us ∧
    (∀ key, key ∈ Entries.keys us ↔ key ∈ Entries.keys ws) ∧
    ∀ entry ∈ ws, ∃ value, (entry.1, value) ∈ us ∧ ∀ inner, robustInner inner = true →
      inner.Accepts target value → inner.Accepts target entry.2

theorem Similar.exists_obj {us : Entries Json} (hsimilar : Similar target (.obj us) w) :
    ∃ ws, w = .obj ws ∧ ∀ key, key ∈ Entries.keys us ↔ key ∈ Entries.keys ws := by
  have hobject := hsimilar.type .object rfl
  cases w with
  | obj ws =>
      obtain ⟨us', heq, hkeys, -⟩ := hsimilar.members ws rfl
      cases heq
      exact ⟨ws, rfl, hkeys⟩
  | _ => cases hobject

theorem accepts_required_iff (hsimilar : Similar target u w) (names : List String) :
    Accepts target (.required names) u ↔ Accepts target (.required names) w := by
  cases w with
  | obj ws =>
      obtain ⟨us, rfl, hkeys, -⟩ := hsimilar.members ws rfl
      simp [hkeys]
  | _ =>
      cases u with
      | obj us =>
          obtain ⟨ws, heq, -⟩ := hsimilar.exists_obj
          cases heq
      | _ => exact Iff.rfl

theorem accepts_of_similar_members {us ws : Entries Json} {known : Entries Inner}
    (hrobust : robustMembers known = true)
    (hmembers : ∀ entry ∈ ws, ∃ value, (entry.1, value) ∈ us ∧ ∀ inner, robustInner inner = true →
      inner.Accepts target value → inner.Accepts target entry.2)
    (haccepts : Accepts target (.closed known) (.obj us)) :
    Accepts target (.closed known) (.obj ws) := by
  rw [accepts_closed] at haccepts ⊢
  intro entry hentry
  obtain ⟨value, hvalue, hinner⟩ := hmembers entry hentry
  obtain ⟨inner, hget, haccepts⟩ := haccepts (entry.1, value) hvalue
  exact ⟨inner, hget, hinner inner (robust_of_get? hrobust hget) haccepts⟩

mutual

/-- Robust schemas accept similar values. -/
theorem accepts_of_similar (hsimilar : Similar target u w) : (schema : Schema) →
    robust schema = true → Accepts target schema u → Accepts target schema w
  | .all parts, hrobust, haccepts => by
      rw [robust] at hrobust
      rw [accepts_all] at haccepts ⊢
      exact fun part hpart => accepts_each_of_similar hsimilar parts hrobust part hpart
        (haccepts part hpart)
  | .anyOf parts, hrobust, haccepts => by
      rw [robust] at hrobust
      rw [accepts_anyOf] at haccepts ⊢
      obtain ⟨part, hpart, haccepts⟩ := haccepts
      exact ⟨part, hpart, accepts_each_of_similar hsimilar parts hrobust part hpart haccepts⟩
  | .oneOf parts, hrobust, haccepts => by
      rw [robust, List.all_eq_true] at hrobust
      refine (accepts_oneOf_congr fun part hpart => ?_).mp haccepts
      have hrequired := hrobust part hpart
      cases part with
      | required names => exact accepts_required_iff hsimilar names
      | _ => cases hrequired
  | .type name, _, haccepts => by
      rw [accepts_type] at haccepts ⊢
      exact hsimilar.type name haccepts
  | .const value, _, haccepts => by
      rw [accepts_const] at haccepts ⊢
      exact hsimilar.const value haccepts
  | .enum values, _, haccepts => by
      rw [accepts_enum] at haccepts ⊢
      obtain ⟨value, hvalue, haccepts⟩ := haccepts
      exact ⟨value, hvalue, hsimilar.const value haccepts⟩
  | .required names, _, haccepts => (accepts_required_iff hsimilar names).mp haccepts
  | .notAll names, _, haccepts => by
      cases u with
      | obj us =>
          obtain ⟨ws, rfl, hkeys⟩ := hsimilar.exists_obj
          simpa [hkeys] using haccepts
      | _ => cases haccepts
  | .closed known, hrobust, haccepts => by
      cases w with
      | obj ws =>
          obtain ⟨us, rfl, -, hmembers⟩ := hsimilar.members ws rfl
          exact accepts_of_similar_members hrobust hmembers haccepts
      | _ => rfl
  | .eachMember inner, hrobust, haccepts => by
      cases w with
      | obj ws =>
          obtain ⟨us, rfl, -, hmembers⟩ := hsimilar.members ws rfl
          rw [accepts_eachMember] at haccepts ⊢
          intro entry hentry
          obtain ⟨value, hvalue, hinner⟩ := hmembers entry hentry
          exact hinner inner hrobust (haccepts _ hvalue)
      | _ => rfl
  | .eachName schema, _, haccepts => by
      cases w with
      | obj ws =>
          obtain ⟨us, rfl, hkeys, -⟩ := hsimilar.members ws rfl
          simpa [hkeys] using haccepts
      | _ => rfl
  | .eachItem inner, hrobust, haccepts => by
      cases w with
      | arr ws =>
          obtain ⟨us, rfl, -, hitems⟩ := hsimilar.items ws rfl
          rw [accepts_eachItem] at haccepts ⊢
          exact hitems inner hrobust haccepts
      | _ => rfl
  | .minItems count, _, haccepts => by
      cases w with
      | arr ws =>
          obtain ⟨us, rfl, hlength, -⟩ := hsimilar.items ws rfl
          simpa [hlength] using haccepts
      | _ => rfl
  | .minLength _, _, haccepts | .pattern _, _, haccepts | .timestamp, _, haccepts => by
      cases w with
      | str text => rwa [hsimilar.text text rfl] at haccepts
      | _ => rfl
  | .minimum bound, hrobust, haccepts => by
      cases w with
      | num n' =>
          obtain ⟨n, rfl, hmin, -⟩ := hsimilar.number n' rfl
          rw [accepts_minimum] at haccepts ⊢
          exact hmin bound (by simpa [robust] using hrobust) haccepts
      | _ => rfl
  | .maximum bound, _, haccepts => by
      cases w with
      | num n' =>
          obtain ⟨n, rfl, -, hmax⟩ := hsimilar.number n' rfl
          rw [accepts_maximum] at haccepts ⊢
          exact hmax bound haccepts
      | _ => rfl
  | .implies _ _, hrobust, _ => by simp [robust] at hrobust
  | .properties _, hrobust, _ => by simp [robust] at hrobust

theorem accepts_each_of_similar (hsimilar : Similar target u w) : (parts : List Schema) →
    robustEach parts = true → ∀ part ∈ parts, Accepts target part u → Accepts target part w
  | [], _, part, hpart, _ => by cases hpart
  | first :: rest, hrobust, part, hpart, haccepts => by
      rw [robustEach, Bool.and_eq_true] at hrobust
      rcases List.mem_cons.mp hpart with heq | hrest
      · rw [heq] at haccepts ⊢
        exact accepts_of_similar hsimilar first hrobust.1 haccepts
      · exact accepts_each_of_similar hsimilar rest hrobust.2 part hrest haccepts

end

theorem Similar.refl (target : Schema) (v : Json) : Similar target v v where
  type _ := id
  const _ := id
  text _ := id
  number n hn := ⟨n, hn, fun _ _ => id, fun _ => id⟩
  items ws hws := ⟨ws, hws, rfl, fun _ _ => id⟩
  members ws hws := ⟨ws, hws, fun _ => Iff.rfl, fun entry hentry =>
    ⟨entry.2, hentry, fun _ _ => id⟩⟩

theorem TypeName.accepts_arr (name : TypeName) (us ws : List Json) :
    name.accepts (.arr us) = name.accepts (.arr ws) := by
  cases name <;> rfl

theorem TypeName.accepts_obj (name : TypeName) (us ws : Entries Json) :
    name.accepts (.obj us) = name.accepts (.obj ws) := by
  cases name <;> rfl

theorem similar_word {n : Number} {x : UInt64} (hword : n.toWord? = some x) :
    Similar target (.num n) (.ofWord x) where
  type name haccepts := by
    cases name with
    | number => rfl
    | integer => rfl
    | _ => cases haccepts
  const value haccepts := by cases value <;> cases haccepts
  text _ htext := by cases htext
  number n' hn' := by
    cases hn'
    exact ⟨n, rfl, fun bound => Number.ltNat_ofWord hword, fun bound => Number.gtNat_ofWord hword⟩
  items _ hws := by cases hws
  members _ hws := by cases hws

/-- What is kept of a value is similar, if references go to a schema that accepts what is kept of
the values it accepts. -/
theorem similar_of_kept (htarget : ∀ u w, Similar target u w → Accepts target target u →
    Accepts target target w) (hkept : Kept u w) : Similar target u w := by
  have hinner : ∀ u w, Similar target u w → ∀ inner, robustInner inner = true →
      inner.Accepts target u → inner.Accepts target w := by
    intro u w hsimilar inner hrobust haccepts
    cases inner with
    | schema schema => exact accepts_of_similar hsimilar schema hrobust haccepts
    | recur => exact htarget u w hsimilar haccepts
  induction hkept with
  | same v => exact Similar.refl target v
  | word hword => exact similar_word hword
  | arr hlength hitems ih =>
      refine ⟨fun name haccepts => ?_, fun value haccepts => ?_, ?_, ?_, fun ws hws => ?_, ?_⟩
      · rwa [TypeName.accepts_arr name _ []] at haccepts ⊢
      · cases value <;> cases haccepts
      · simp
      · simp
      · cases hws
        refine ⟨_, rfl, hlength, fun inner hrobust haccepts item hitem => ?_⟩
        obtain ⟨u, hu, hzip⟩ := exists_mem_zip hlength hitem
        exact hinner u item (ih u item hzip) inner hrobust (haccepts u hu)
      · simp
  | obj source hmember hkept hkeys hdistinct ih =>
      refine ⟨fun name haccepts => ?_, fun value haccepts => ?_, ?_, ?_, ?_, fun ws hws => ?_⟩
      · rwa [TypeName.accepts_obj name _ []] at haccepts ⊢
      · cases value <;> cases haccepts
      · simp
      · simp
      · simp
      · cases hws
        refine ⟨_, rfl, hkeys, fun entry hentry => ⟨_, hmember entry hentry, ?_⟩⟩
        exact hinner _ _ (ih entry hentry)

end Schema

end StateFlow
