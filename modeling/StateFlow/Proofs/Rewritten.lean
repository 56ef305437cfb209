import Mathlib.Tactic.Choose
import StateFlow.Json.Pointer
import StateFlow.Proofs.Kept
import StateFlow.Proofs.NumberValue

/-!
# Values that are read and written again

The places of a playbook differ in which numbers are read as integers there.  `Slot` says what a
place is for, as far as that matters, and `Rewritten` is the relation between the value at a place
and what is written for it: members may change their order, and numbers change only where an integer
is asked for.  `Rewritten.kept` forgets the places.  As long as no concurrency is too great for a
word, the two values say the same (`Rewritten.restated`).
-/

namespace StateFlow.Playbook

open StateFlow.Json

/-! ## Places -/

/-- What a place of a playbook is for. -/
inductive Slot where
  | playbook | decorators | states | state | machines | machine | retriers | retrier
  /-- A number of seconds or attempts, which is bounded. -/
  | seconds
  /-- A number of runs at the same time, which is not. -/
  | concurrency
  /-- A place in which no integer is asked for. -/
  | data
deriving DecidableEq

namespace Slot

def member : Slot → String → Slot
  | .playbook, "States" => .states
  | .playbook, "Decorators" => .decorators
  | .decorators, "TaskFailureHandler" => .state
  | .states, _ => .state
  | .state, "Branches" => .machines
  | .state, "Iterator" => .machine
  | .state, "Retry" => .retriers
  | .state, "TimeoutSeconds" => .seconds
  | .state, "HeartbeatSeconds" => .seconds
  | .state, "MaxConcurrency" => .concurrency
  | .machine, "States" => .states
  | .retrier, "IntervalSeconds" => .seconds
  | .retrier, "MaxAttempts" => .seconds
  | _, _ => .data

def item : Slot → Slot
  | .machines => .machine
  | .retriers => .retrier
  | _ => .data

def step (slot : Slot) : Segment → Slot
  | .key name => slot.member name
  | .index _ => slot.item

def after (slot : Slot) (path : List Segment) : Slot := path.foldl step slot

end Slot

/-! ## Rewritten values -/

/-- What is written for the value at a place.  Seconds come out as they are; a concurrency is taken
for a word. -/
inductive Rewritten : Slot → Json → Json → Prop
  | same (slot : Slot) (v : Json) : Rewritten slot v v
  | seconds {n : Number} {x : UInt64} (hword : n.toWord? = some x) (hvalue : n.value = x.toNat) :
      Rewritten .seconds (.num n) (.ofWord x)
  | concurrency {n : Number} {x : UInt64} (hword : n.toWord? = some x) :
      Rewritten .concurrency (.num n) (.ofWord x)
  | arr {slot : Slot} {us ws : List Json} (hlength : us.length = ws.length)
      (hitems : ∀ u w, (u, w) ∈ us.zip ws → Rewritten slot.item u w) :
      Rewritten slot (.arr us) (.arr ws)
  | obj {slot : Slot} {us ws : Entries Json} (source : ∀ entry ∈ ws, Json)
      (hmember : ∀ entry hentry, (entry.1, source entry hentry) ∈ us)
      (hrewritten : ∀ entry hentry,
        Rewritten (slot.member entry.1) (source entry hentry) entry.2)
      (hkeys : ∀ key, key ∈ Entries.keys us ↔ key ∈ Entries.keys ws)
      (hdistinct : Entries.Distinct us → Entries.Distinct ws) : Rewritten slot (.obj us) (.obj ws)

namespace Rewritten

variable {slot : Slot}

theorem kept {v w : Json} (hrewritten : Rewritten slot v w) : Kept v w := by
  induction hrewritten with
  | same slot v => exact .same v
  | seconds hword hvalue => exact .word hword
  | concurrency hword => exact .word hword
  | arr hlength hitems ih => exact .arr hlength ih
  | obj source hmember hrewritten hkeys hdistinct ih => exact .obj source hmember ih hkeys hdistinct

/-- Objects with the same names are rewritten if every member comes from one of the same name. -/
theorem of_members {us ws : Entries Json}
    (hmembers : ∀ entry ∈ ws, ∃ u, (entry.1, u) ∈ us ∧ Rewritten (slot.member entry.1) u entry.2)
    (hkeys : ∀ key, key ∈ Entries.keys us ↔ key ∈ Entries.keys ws)
    (hdistinct : Entries.Distinct us → Entries.Distinct ws) :
    Rewritten slot (.obj us) (.obj ws) := by
  choose source hmember hrewritten using hmembers
  exact .obj source hmember hrewritten hkeys hdistinct

theorem of_pairs {us ws : Entries Json} (hpairs : List.Forall₂
    (fun u w => u.1 = w.1 ∧ Rewritten (slot.member w.1) u.2 w.2) us ws) :
    Rewritten slot (.obj us) (.obj ws) := by
  have hkeys : Entries.keys us = Entries.keys ws := by
    rw [← List.forall₂_eq_eq_eq, Entries.keys, Entries.keys, List.forall₂_map_left_iff,
      List.forall₂_map_right_iff]
    exact hpairs.imp fun _ _ hpair => hpair.1
  refine of_members (fun entry hentry => ?_) (fun key => by rw [hkeys]) fun hdistinct => ?_
  · obtain ⟨hlength, hpairs⟩ := List.forall₂_iff_zip.mp hpairs
    obtain ⟨u, hu, hzip⟩ := exists_mem_zip hlength hentry
    obtain ⟨hname, hrewritten⟩ := hpairs hzip
    exact ⟨u.2, by rwa [← hname], hrewritten⟩
  · rwa [Entries.Distinct, ← hkeys]

theorem of_forall₂ {us ws : List Json} (hitems : List.Forall₂ (Rewritten slot.item) us ws) :
    Rewritten slot (.arr us) (.arr ws) := by
  rw [List.forall₂_iff_zip] at hitems
  exact .arr hitems.1 fun u w => hitems.2

end Rewritten

/-! ## Restated values -/

def ConcurrencyFits (slot : Slot) (v : Json) : Prop :=
  ∀ path n, slot.after path = .concurrency → v.at? path = some (.num n) → n.value < 2 ^ 64

theorem ConcurrencyFits.member {slot : Slot} {members : Entries Json} {key : String} {v : Json}
    (hfits : ConcurrencyFits slot (.obj members)) (hv : Entries.get? members key = some v) :
    ConcurrencyFits (slot.member key) v := by
  intro path n hpath hn
  refine hfits (.key key :: path) n hpath ?_
  rw [Json.at?, List.foldlM_cons]
  simpa [step?, hv, Json.at?] using hn

theorem ConcurrencyFits.item {slot : Slot} {items : List Json} {v : Json}
    (hfits : ConcurrencyFits slot (.arr items)) (hv : v ∈ items) :
    ConcurrencyFits slot.item v := by
  obtain ⟨i, hi⟩ := List.mem_iff_getElem?.mp hv
  intro path n hpath hn
  refine hfits (.index i :: path) n hpath ?_
  rw [Json.at?, List.foldlM_cons]
  simpa [step?, hi, Json.at?] using hn

/-- Two values say the same: members may stand in another order, and where an integer is asked for,
it may stand for a number of the same value. -/
inductive Restated : Slot → Json → Json → Prop
  | same (slot : Slot) (v : Json) : Restated slot v v
  | integer {slot : Slot} {n : Number} {x : UInt64} (hslot : slot = .seconds ∨ slot = .concurrency)
      (hvalue : n.value = x.toNat) : Restated slot (.num n) (.ofWord x)
  | arr {slot : Slot} {us ws : List Json} (hlength : us.length = ws.length)
      (hitems : ∀ u w, (u, w) ∈ us.zip ws → Restated slot.item u w) :
      Restated slot (.arr us) (.arr ws)
  | obj {slot : Slot} {us zs ws : Entries Json} (hperm : us.Perm zs)
      (hnames : Entries.keys zs = Entries.keys ws)
      (hmembers : ∀ u w, (u, w) ∈ zs.zip ws → Restated (slot.member w.1) u.2 w.2) :
      Restated slot (.obj us) (.obj ws)

section Sources

variable {us ws : Entries Json} (source : ∀ entry ∈ ws, Json)

def sources : Entries Json := ws.attach.map fun entry => (entry.1.1, source entry.1 entry.2)

theorem keys_sources : Entries.keys (sources source) = Entries.keys ws := by
  rw [Entries.keys, sources, List.map_map]
  change ws.attach.map (fun entry => entry.val.1) = ws.map Prod.fst
  exact List.attach_map_val

theorem exists_of_mem_zip {u w : String × Json} (hzip : (u, w) ∈ (sources source).zip ws) :
    ∃ hw : w ∈ ws, u = (w.1, source w hw) := by
  obtain ⟨i, hi, heq⟩ := List.mem_iff_getElem.mp hzip
  rw [List.getElem_zip, Prod.mk.injEq] at heq
  obtain ⟨rfl, rfl⟩ := heq
  exact ⟨List.getElem_mem _, by simp [sources]⟩

/-- Where names are distinct, the members that others come from are all there are. -/
theorem perm_sources (hmember : ∀ entry hentry, (entry.1, source entry hentry) ∈ us)
    (hkeys : ∀ key, key ∈ Entries.keys us ↔ key ∈ Entries.keys ws)
    (hus : Entries.Distinct us) (hws : Entries.Distinct ws) : us.Perm (sources source) := by
  have hsources : Entries.Distinct (sources source) := by
    rwa [Entries.Distinct, keys_sources]
  rw [List.perm_ext_iff_of_nodup hus.of_map hsources.of_map]
  intro entry
  constructor
  · intro hentry
    have hkey := (hkeys entry.1).mp (Entries.mem_keys_of_mem hentry)
    obtain ⟨other, hother, hname⟩ := List.mem_map.mp hkey
    have hsource := Entries.get?_of_mem hus (hmember other hother)
    rw [hname, Entries.get?_of_mem hus hentry] at hsource
    refine List.mem_map.mpr ⟨⟨other, hother⟩, List.mem_attach _ _, ?_⟩
    rw [hname, ← Option.some.inj hsource]
  · intro hentry
    obtain ⟨⟨other, hother⟩, -, rfl⟩ := List.mem_map.mp hentry
    exact hmember other hother

end Sources

theorem Rewritten.restated {slot : Slot} {v w : Json} (hrewritten : Rewritten slot v w)
    (hwell : v.WellFormed) (hfits : ConcurrencyFits slot v) : Restated slot v w := by
  induction hrewritten with
  | same slot v => exact .same slot v
  | seconds hword hvalue => exact .integer (Or.inl rfl) hvalue
  | concurrency hword =>
      -- The bound is needed, because `2 ^ 64` itself would be taken for the greatest word.
      obtain ⟨hnonneg, hwhole⟩ := Number.of_toWord? hword
      obtain ⟨x, hx, hvalue⟩ := Number.exists_word hwhole hnonneg (hfits [] _ rfl rfl)
      cases hword.symm.trans hx
      exact .integer (Or.inr rfl) hvalue
  | arr hlength hitems ih =>
      refine .arr hlength fun u w hzip => ?_
      have hu := (List.of_mem_zip hzip).1
      exact ih u w hzip (wellFormed_of_mem_items hwell hu) (hfits.item hu)
  | @obj slot us ws source hmember hrewritten hkeys hdistinct ih =>
      refine .obj (perm_sources source hmember hkeys hwell.1 (hdistinct hwell.1))
        (keys_sources source) fun u w hzip => ?_
      obtain ⟨hw, rfl⟩ := exists_of_mem_zip source hzip
      exact ih w hw (wellFormed_of_mem hwell.2 (hmember w hw))
        (hfits.member (Entries.get?_of_mem hwell.1 (hmember w hw)))

end StateFlow.Playbook
