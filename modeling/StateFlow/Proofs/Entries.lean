import Mathlib.Data.List.Nodup
import Mathlib.Data.List.Pairwise
import StateFlow.Entries

/-!
# Laws of ordered entries

Inserting never takes a name away and never makes one occur twice.  Where all names differ,
extending is appending; where they do not, a later entry takes the place of an earlier one, and
what the two contribute to a list built from all entries is lost only if one of them contributes
something.
-/

namespace StateFlow.Entries

variable {α β : Type}

/-! ## Names and values -/

@[simp] theorem keys_nil : keys ([] : Entries α) = [] := rfl

@[simp] theorem keys_cons (entry : String × α) (rest : Entries α) :
    keys (entry :: rest) = entry.1 :: keys rest := rfl

@[simp] theorem keys_append (a b : Entries α) : keys (a ++ b) = keys a ++ keys b := by
  simp [keys]

@[simp] theorem keys_mapValues {β : Type} (f : α → β) (entries : Entries α) :
    keys (mapValues f entries) = keys entries := by
  simp [keys, mapValues]

theorem mapValues_cons (f : α → β) (entry : String × α) (rest : Entries α) :
    mapValues f (entry :: rest) = (entry.1, f entry.2) :: mapValues f rest := rfl

theorem mapValues_append (f : α → β) (a b : Entries α) :
    mapValues f (a ++ b) = mapValues f a ++ mapValues f b :=
  List.map_append

theorem mem_keys_of_mem {entries : Entries α} {key : String} {value : α}
    (hmem : (key, value) ∈ entries) : key ∈ keys entries :=
  List.mem_map_of_mem (f := Prod.fst) hmem

theorem get?_of_mem {entries : Entries α} {key : String} {value : α}
    (hdistinct : Distinct entries) (hmem : (key, value) ∈ entries) :
    get? entries key = some value := by
  induction entries with
  | nil => simp at hmem
  | cons entry rest ih =>
      obtain ⟨k, v⟩ := entry
      simp only [Distinct, keys_cons, List.nodup_cons] at hdistinct
      rw [get?]
      rcases List.mem_cons.mp hmem with heq | hrest
      · cases heq
        simp
      · have hne : k ≠ key := by
          intro hk
          exact hdistinct.1 (hk ▸ mem_keys_of_mem hrest)
        rw [if_neg hne]
        exact ih hdistinct.2 hrest

theorem has_iff {entries : Entries α} {key : String} :
    has entries key = true ↔ key ∈ keys entries := by
  unfold has
  induction entries with
  | nil => simp [get?]
  | cons entry rest ih =>
      obtain ⟨k, v⟩ := entry
      rw [get?, keys_cons, List.mem_cons]
      split
      · next heq => simp [heq]
      · next hne =>
          rw [ih]
          exact ⟨Or.inr, fun h => h.resolve_left (Ne.symm hne)⟩

theorem get?_eq_none {entries : Entries α} {key : String} :
    get? entries key = none ↔ key ∉ keys entries := by
  rw [← has_iff, has]
  cases get? entries key <;> simp

theorem mem_keys_iff_get? {entries : Entries α} {key : String} :
    key ∈ keys entries ↔ ∃ value, get? entries key = some value := by
  rw [← has_iff, has, Option.isSome_iff_exists]

theorem mem_of_get? {entries : Entries α} {key : String} {value : α}
    (hget : get? entries key = some value) : (key, value) ∈ entries := by
  induction entries with
  | nil => cases hget
  | cons entry rest ih =>
      rw [get?] at hget
      split at hget
      · next heq =>
          cases hget
          simp [← heq]
      · exact List.mem_cons_of_mem _ (ih hget)

theorem get?_filterKeys (p : String → Bool) {key : String} (hkey : p key = true)
    (entries : Entries α) : get? (filterKeys p entries) key = get? entries key := by
  induction entries with
  | nil => rfl
  | cons entry entries ih =>
      rw [filterKeys] at ih
      by_cases heq : entry.1 = key
      · simp [filterKeys, heq, hkey, get?]
      · rw [filterKeys, List.filter_cons, get?, if_neg heq]
        split
        · rw [get?, if_neg heq, ih]
        · exact ih

theorem get?_append (a b : Entries α) (key : String) :
    get? (a ++ b) key = (get? a key).or (get? b key) := by
  induction a with
  | nil => rfl
  | cons entry a ih =>
      rw [List.cons_append, get?, get?]
      split
      · rfl
      · exact ih

theorem get?_mapValues {β : Type} (f : α → β) (entries : Entries α) (key : String) :
    get? (mapValues f entries) key = (get? entries key).map f := by
  induction entries with
  | nil => rfl
  | cons entry entries ih =>
      rw [mapValues, List.map_cons, get?, get?]
      split
      · rfl
      · exact ih

/-- Where only one name contributes to a list, the list is what its entry contributes. -/
theorem flatMap_eq_of_distinct {entries : Entries α} {entry : String × α} {f : String × α → List β}
    (hdistinct : Distinct entries) (hentry : entry ∈ entries)
    (hother : ∀ other ∈ entries, other.1 ≠ entry.1 → f other = []) :
    entries.flatMap f = f entry := by
  induction entries with
  | nil => cases hentry
  | cons first rest ih =>
      simp only [Distinct, keys_cons, List.nodup_cons] at hdistinct
      rw [List.forall_mem_cons] at hother
      rcases List.mem_cons.mp hentry with rfl | hrest
      · have hnil : rest.flatMap f = [] := by
          rw [List.flatMap_eq_nil_iff]
          intro other hmem
          exact hother.2 other hmem fun heq => hdistinct.1 (heq ▸ mem_keys_of_mem hmem)
        rw [List.flatMap_cons, hnil, List.append_nil]
      · have hne : first.1 ≠ entry.1 := fun heq => hdistinct.1 (heq ▸ mem_keys_of_mem hrest)
        rw [List.flatMap_cons, hother.1 hne, List.nil_append, ih hdistinct.2 hrest hother.2]

/-! ## Inserting -/

theorem get?_insert (entries : Entries α) (key name : String) (value : α) :
    get? (insert entries key value) name =
      if key = name then some value else get? entries name := by
  induction entries with
  | nil => simp [insert, get?]
  | cons entry rest ih =>
      obtain ⟨k, v⟩ := entry
      rw [insert]
      by_cases hkey : k = key
      · subst hkey
        rw [if_pos rfl, get?, get?]
        by_cases hname : k = name
        · simp [hname]
        · simp [hname]
      · rw [if_neg hkey, get?, get?, ih]
        by_cases hname : k = name
        · have hne : key ≠ name := fun h => hkey (hname.trans h.symm)
          simp [hname, hne]
        · simp [hname]

theorem insert_of_not_mem {entries : Entries α} {key : String} (value : α)
    (hnew : key ∉ keys entries) : insert entries key value = entries ++ [(key, value)] := by
  induction entries with
  | nil => rfl
  | cons entry rest ih =>
      obtain ⟨k, v⟩ := entry
      simp only [keys_cons, List.mem_cons, not_or] at hnew
      rw [insert, if_neg (Ne.symm hnew.1), ih hnew.2]
      rfl

theorem keys_insert_of_mem {entries : Entries α} {key : String} (value : α)
    (hold : key ∈ keys entries) : keys (insert entries key value) = keys entries := by
  induction entries with
  | nil => simp at hold
  | cons entry rest ih =>
      obtain ⟨k, v⟩ := entry
      rw [insert]
      split
      · next heq => simp [heq]
      · next hne =>
          have hrest : key ∈ keys rest := by
            simpa [Ne.symm hne] using hold
          rw [keys_cons, keys_cons, ih hrest]

theorem mem_keys_insert {entries : Entries α} {key name : String} {value : α} :
    name ∈ keys (insert entries key value) ↔ name ∈ keys entries ∨ name = key := by
  by_cases hold : key ∈ keys entries
  · rw [keys_insert_of_mem value hold]
    constructor
    · exact Or.inl
    · rintro (hname | rfl)
      · exact hname
      · exact hold
  · simp [insert_of_not_mem value hold]

theorem mem_of_mem_insert {entries : Entries α} {key : String} {value : α} {entry : String × α}
    (hmem : entry ∈ insert entries key value) : entry ∈ entries ∨ entry = (key, value) := by
  induction entries with
  | nil => exact Or.inr (by simpa [insert] using hmem)
  | cons first rest ih =>
      obtain ⟨k, v⟩ := first
      rw [insert] at hmem
      split at hmem
      · rcases List.mem_cons.mp hmem with heq | hrest
        · exact Or.inr heq
        · exact Or.inl (List.mem_cons_of_mem _ hrest)
      · rcases List.mem_cons.mp hmem with heq | hrest
        · exact Or.inl (by simp [heq])
        · exact (ih hrest).imp_left (List.mem_cons_of_mem _)

theorem distinct_insert {entries : Entries α} (key : String) (value : α)
    (hdistinct : Distinct entries) : Distinct (insert entries key value) := by
  unfold Distinct at hdistinct ⊢
  by_cases hold : key ∈ keys entries
  · rwa [keys_insert_of_mem value hold]
  · rw [insert_of_not_mem value hold, keys_append]
    refine List.nodup_append.mpr ⟨hdistinct, by simp, ?_⟩
    rintro a ha b hb rfl
    rw [keys_cons, keys_nil, List.mem_singleton] at hb
    subst hb
    exact hold ha

/-- An entry that takes another one's place keeps a list built from the entries as it is, if
neither contributes anything to it. -/
theorem flatMap_insert {entries : Entries α} {key : String} {value : α}
    (f : String × α → List β)
    (hclash : ∀ entry ∈ entries, entry.1 = key → f entry = [] ∧ f (key, value) = []) :
    (insert entries key value).flatMap f = entries.flatMap f ++ f (key, value) := by
  induction entries with
  | nil => simp [insert]
  | cons entry rest ih =>
      obtain ⟨k, v⟩ := entry
      rw [insert]
      split
      · next heq =>
          obtain ⟨hold, hnew⟩ := hclash (k, v) (by simp) heq
          simp [hold, hnew]
      · have hrest := ih fun entry hmem => hclash entry (List.mem_cons_of_mem _ hmem)
        simp [hrest]

theorem mapValues_insert (f : α → β) (entries : Entries α) (key : String) (value : α) :
    mapValues f (insert entries key value) = insert (mapValues f entries) key (f value) := by
  induction entries with
  | nil => rfl
  | cons entry rest ih =>
      rw [insert, mapValues_cons, insert]
      split
      · rfl
      · rw [mapValues_cons, ih]

/-! ## Extending -/

@[simp] theorem extend_nil (entries : Entries α) : extend entries [] = entries := rfl

@[simp] theorem extend_cons (entries more : Entries α) (entry : String × α) :
    extend entries (entry :: more) = extend (insert entries entry.1 entry.2) more := rfl

theorem mem_keys_extend {entries more : Entries α} {name : String} :
    name ∈ keys (extend entries more) ↔ name ∈ keys entries ∨ name ∈ keys more := by
  induction more generalizing entries with
  | nil => simp
  | cons entry more ih =>
      rw [extend_cons, ih, mem_keys_insert, keys_cons, List.mem_cons]
      tauto

theorem mem_of_mem_extend {entries more : Entries α} {entry : String × α}
    (hmem : entry ∈ extend entries more) : entry ∈ entries ∨ entry ∈ more := by
  induction more generalizing entries with
  | nil => exact Or.inl hmem
  | cons first more ih =>
      rw [extend_cons] at hmem
      rcases ih hmem with hinsert | hmore
      · rcases mem_of_mem_insert hinsert with hold | heq
        · exact Or.inl hold
        · exact Or.inr (by simp [heq])
      · exact Or.inr (List.mem_cons_of_mem _ hmore)

theorem distinct_extend {entries : Entries α} (more : Entries α)
    (hdistinct : Distinct entries) : Distinct (extend entries more) := by
  induction more generalizing entries with
  | nil => exact hdistinct
  | cons entry more ih => exact ih (distinct_insert entry.1 entry.2 hdistinct)

theorem extend_append (entries a b : Entries α) :
    extend entries (a ++ b) = extend (extend entries a) b := by
  simp [extend]

/-- A name that is in both lists has the value of the list that is inserted. -/
theorem get?_extend {entries more : Entries α} (hdistinct : Distinct more) (name : String) :
    get? (extend entries more) name = (get? more name).or (get? entries name) := by
  induction more generalizing entries with
  | nil => simp [get?]
  | cons entry more ih =>
      obtain ⟨k, v⟩ := entry
      simp only [Distinct, keys_cons, List.nodup_cons] at hdistinct
      rw [extend_cons, ih hdistinct.2, get?_insert, get?]
      by_cases hname : k = name
      · have hlater : get? more name = none := get?_eq_none.mpr (hname ▸ hdistinct.1)
        simp [hname, hlater]
      · simp [hname]

/-- A name that is not inserted keeps its value, also where other names are inserted twice. -/
theorem get?_extend_of_not_mem {entries more : Entries α} {name : String}
    (hname : name ∉ keys more) : get? (extend entries more) name = get? entries name := by
  induction more generalizing entries with
  | nil => rfl
  | cons entry more ih =>
      rw [keys_cons, List.mem_cons, not_or] at hname
      rw [extend_cons, ih hname.2, get?_insert, if_neg (Ne.symm hname.1)]

theorem extend_eq_append {entries more : Entries α}
    (hdistinct : Distinct (entries ++ more)) : extend entries more = entries ++ more := by
  induction more generalizing entries with
  | nil => simp
  | cons entry more ih =>
      have hnew : entry.1 ∉ keys entries := by
        intro hmem
        rw [Distinct, keys_append, List.nodup_append] at hdistinct
        exact hdistinct.2.2 _ hmem _ (by simp) rfl
      have happend : entries ++ [entry] ++ more = entries ++ entry :: more := by simp
      rw [extend_cons, insert_of_not_mem _ hnew, ih (by rwa [happend]), happend]

/-- Two entries of one name may stand in a list that is inserted, if neither contributes anything
to a list built from the entries. -/
theorem flatMap_extend {entries more : Entries α} (f : String × α → List β)
    (hclash : ∀ a ∈ entries, ∀ b ∈ more, a.1 = b.1 → f a = [] ∧ f b = [])
    (hmore : more.Pairwise fun a b => a.1 = b.1 → f a = [] ∧ f b = []) :
    (extend entries more).flatMap f = entries.flatMap f ++ more.flatMap f := by
  induction more generalizing entries with
  | nil => simp
  | cons entry more ih =>
      rw [List.pairwise_cons] at hmore
      have hinsert : (insert entries entry.1 entry.2).flatMap f = entries.flatMap f ++ f entry :=
        flatMap_insert f fun old hold => hclash old hold entry (by simp)
      have hclash' : ∀ a ∈ insert entries entry.1 entry.2, ∀ b ∈ more,
          a.1 = b.1 → f a = [] ∧ f b = [] := by
        intro a ha b hb
        rcases mem_of_mem_insert ha with hold | rfl
        · exact hclash a hold b (List.mem_cons_of_mem _ hb)
        · exact hmore.1 b hb
      rw [extend_cons, ih hclash' hmore.2, hinsert, List.flatMap_cons, List.append_assoc]

theorem mapValues_extend (f : α → β) (entries more : Entries α) :
    mapValues f (extend entries more) = extend (mapValues f entries) (mapValues f more) := by
  induction more generalizing entries with
  | nil => rfl
  | cons entry more ih =>
      rw [extend_cons, ih, mapValues_insert]
      rfl

/-! ## Entries of a list of pairs -/

theorem mem_keys_ofPairs {pairs : Entries α} {name : String} :
    name ∈ keys (ofPairs pairs) ↔ name ∈ keys pairs := by
  simp [ofPairs, mem_keys_extend]

theorem mem_of_mem_ofPairs {pairs : Entries α} {entry : String × α}
    (hmem : entry ∈ ofPairs pairs) : entry ∈ pairs := by
  simpa using mem_of_mem_extend hmem

theorem distinct_ofPairs (pairs : Entries α) : Distinct (ofPairs pairs) :=
  distinct_extend pairs List.nodup_nil

/-- Values may be changed before or after repeated names are taken out. -/
theorem mapValues_ofPairs (f : α → β) (pairs : Entries α) :
    mapValues f (ofPairs pairs) = ofPairs (mapValues f pairs) :=
  mapValues_extend f [] pairs

theorem ofPairs_eq_self {pairs : Entries α} (hdistinct : Distinct pairs) :
    ofPairs pairs = pairs :=
  extend_eq_append hdistinct

theorem flatMap_ofPairs {pairs : Entries α} (f : String × α → List β)
    (hclash : pairs.Pairwise fun a b => a.1 = b.1 → f a = [] ∧ f b = []) :
    (ofPairs pairs).flatMap f = pairs.flatMap f := by
  have hempty : ∀ a ∈ ([] : Entries α), ∀ b ∈ pairs, a.1 = b.1 → f a = [] ∧ f b = [] := by
    simp
  simpa [ofPairs] using flatMap_extend f hempty hclash

/-! ## Entries in another order -/

theorem keys_perm {a b : Entries α} (hperm : a.Perm b) : (keys a).Perm (keys b) :=
  hperm.map Prod.fst

theorem distinct_perm {a b : Entries α} (hperm : a.Perm b) : Distinct a ↔ Distinct b :=
  (keys_perm hperm).nodup_iff

/-- Where all names differ, the order does not decide what a name stands for. -/
theorem get?_perm {a b : Entries α} (hdistinct : Distinct a) (hperm : a.Perm b) (name : String) :
    get? a name = get? b name := by
  cases hget : get? a name with
  | none =>
      rw [get?_eq_none, (keys_perm hperm).mem_iff] at hget
      exact (get?_eq_none.mpr hget).symm
  | some value =>
      have hmem : (name, value) ∈ b := hperm.mem_iff.mp (mem_of_get? hget)
      exact (get?_of_mem ((distinct_perm hperm).mp hdistinct) hmem).symm

/-- Up to order, inserting takes out the entry of the name and puts the new one in. -/
theorem insert_perm_cons {entries : Entries α} (key : String) (value : α)
    (hdistinct : Distinct entries) :
    (insert entries key value).Perm
      ((key, value) :: filterKeys (fun name => name ≠ key) entries) := by
  unfold filterKeys
  induction entries with
  | nil => exact List.Perm.refl _
  | cons entry rest ih =>
      obtain ⟨k, v⟩ := entry
      rw [Distinct, keys_cons, List.nodup_cons] at hdistinct
      rw [insert]
      by_cases hkey : k = key
      · subst hkey
        have hrest : rest.filter (fun entry => !decide (entry.1 = k)) = rest := by
          refine List.filter_eq_self.mpr fun entry hentry => ?_
          have hne : entry.1 ≠ k := by
            rintro rfl
            exact hdistinct.1 (mem_keys_of_mem hentry)
          simp [hne]
        simp [hrest]
      · rw [if_neg hkey, List.filter_cons_of_pos (by simpa using hkey)]
        exact ((ih hdistinct.2).cons _).trans (List.Perm.swap _ _ _)

theorem insert_perm {a b : Entries α} (key : String) (value : α) (hdistinct : Distinct a)
    (hperm : a.Perm b) : (insert a key value).Perm (insert b key value) := by
  refine (insert_perm_cons key value hdistinct).trans ?_
  refine List.Perm.trans ?_ (insert_perm_cons key value ((distinct_perm hperm).mp hdistinct)).symm
  exact (hperm.filter _).cons _

theorem extend_perm {a b : Entries α} (more : Entries α) (hdistinct : Distinct a)
    (hperm : a.Perm b) : (extend a more).Perm (extend b more) := by
  induction more generalizing a b with
  | nil => exact hperm
  | cons entry more ih =>
      exact ih (distinct_insert entry.1 entry.2 hdistinct)
        (insert_perm entry.1 entry.2 hdistinct hperm)

end StateFlow.Entries
