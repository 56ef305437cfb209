import StateFlow.Proofs.CompiledShape

/-!
# Counts that are checked and counts that are read

The shape of a Map takes every whole number that is not negative for its concurrency, also in the
form of a double (`accepts_count_iff`).  A count is read as a word of the same value, and there are
no words above `2 ^ 64`: `checkState_maxConcurrency_iff` says that up to there the two agree.
-/

namespace StateFlow.Playbook

open StateFlow.Schema StateFlow.Json

variable {target : Schema}

/-- A count is a number whose value is a natural. -/
theorem Shape.accepts_count_iff {n : Number} :
    Shape.count.Accepts target (.num n) ↔ ∃ k : ℕ, n.value = k := by
  rw [Number.exists_nat_iff, Shape.count, accepts_inner]
  simp [TypeName.accepts]

/-- A Map that has its shape keeps it with a concurrency, wherever that stands, exactly if the
concurrency is a count. -/
theorem Shape.accepts_map_concurrency {front back : Entries Json} {v : Json}
    (hshape : Accepts target Shape.map (.obj (front ++ back))) :
    Accepts target Shape.map (.obj (front ++ ("MaxConcurrency", v) :: back)) ↔
      Shape.count.Accepts target v := by
  rw [Shape.map, Shape.accepts_kindObject] at hshape ⊢
  obtain ⟨hrequired, hmembers, hexit⟩ := hshape
  constructor
  · rintro ⟨-, hall, -⟩
    obtain ⟨inner, hinner, haccepts⟩ := hall ("MaxConcurrency", v) (by simp)
    cases hinner
    exact haccepts
  · intro hcount
    refine ⟨fun name hname => ?_, fun entry hentry => ?_, ?_⟩
    · have hold := hrequired name hname
      rw [Entries.keys_append, List.mem_append] at hold ⊢
      exact hold.imp_right (List.mem_cons_of_mem _)
    · rcases List.mem_append.mp hentry with hfront | hback
      · exact hmembers entry (List.mem_append_left _ hfront)
      · rcases List.mem_cons.mp hback with rfl | hback
        · exact ⟨_, rfl, hcount⟩
        · exact hmembers entry (List.mem_append_right _ hback)
    · -- The concurrency is not a way to leave the state.
      rw [List.forall_mem_singleton, Shape.exitRule, Shape.accepts_exactlyOne] at hexit ⊢
      rw [← hexit]
      refine List.countP_congr fun name hname => ?_
      have hne : name ≠ "MaxConcurrency" := by
        rintro rfl
        simp at hname
      simp [hne]

theorem readOptional_readWord {n : Number} {word : UInt64} :
    readOptional readWord (.num n) = .ok (some word) ↔ n.toWord? = some word := by
  cases hword : n.toWord? <;> simp [readOptional, readWord, hword, Functor.map, Except.map]

/-- Apart from `2 ^ 64`, a number passes as the concurrency of a Map exactly if it is read as a word
or is a whole number above `2 ^ 64`, and what it is read as has its value. -/
theorem checkState_maxConcurrency_iff (s : Settings) (front back : Entries Json) (n : Number)
    (hkind : Entries.get? (front ++ back) "Type" = some (.str "Map"))
    (hvalid : checkState s (.obj (front ++ back)) = [])
    (hother : n.value ≠ 2 ^ 64) :
    (checkState s (.obj (front ++ ("MaxConcurrency", .num n) :: back)) = [] ↔
      (∃ word, readOptional readWord (.num n) = .ok (some word)) ∨
        ∃ k : ℕ, 2 ^ 64 < k ∧ n.value = k) ∧
    ∀ word, readOptional readWord (.num n) = .ok (some word) → n.value = word.toNat := by
  have hkind' : Entries.get? (front ++ ("MaxConcurrency", .num n) :: back) "Type" =
      some (.str "Map") := by
    rw [Entries.get?_append] at hkind ⊢
    rwa [Entries.get?, if_neg (by decide)]
  have hcheck : checkState s (.obj (front ++ ("MaxConcurrency", .num n) :: back)) = [] ↔
      ∃ k : ℕ, n.value = k := by
    rw [← Shape.accepts_count_iff, checkState_eq_nil .map hkind', Shape.ofKind,
      Shape.accepts_map_concurrency ((checkState_eq_nil .map hkind).mp hvalid)]
  rw [hcheck]
  simp only [readOptional_readWord, Number.toWord?_eq_some_iff hother]
  refine ⟨⟨?_, ?_⟩, fun word hword => hword⟩
  · rintro ⟨k, hk⟩
    rcases lt_trichotomy k (2 ^ 64) with hlt | rfl | hgt
    · refine Or.inl ⟨UInt64.ofNat k, ?_⟩
      rw [hk, UInt64.toNat_ofNat_of_lt' hlt]
    · exact absurd (by exact_mod_cast hk) hother
    · exact Or.inr ⟨k, hgt, hk⟩
  · rintro (⟨word, hword⟩ | ⟨k, -, hk⟩)
    · exact ⟨word.toNat, hword⟩
    · exact ⟨k, hk⟩

def iteration : Entries Json :=
  [("Type", .str "Map"),
    ("Iterator", .obj
      [("StartAt", .str "Done"), ("States", .obj [("Done", .obj [("Type", .str "Succeed")])])])]

/-- The greatest double below `2 ^ 64`. -/
def greatestCount : Number := .float ⟨0x43EFFFFFFFFFFFFF, by decide⟩

theorem checkState_maxConcurrency_greatestCount :
    readOptional readWord (.num greatestCount) = .ok (some 0xFFFFFFFFFFFFF800) ∧
      greatestCount.value = 0xFFFFFFFFFFFFF800 ∧
      checkState .production
        (.obj (iteration ++ ("MaxConcurrency", .num greatestCount) :: [("End", .bool true)])) =
          [] := by
  have hword : greatestCount.toWord? = some 0xFFFFFFFFFFFFF800 := by decide +kernel
  have hread := readOptional_readWord.mpr hword
  have hlt : greatestCount.value < 2 ^ 64 := by
    have hless : greatestCount.value < (2 ^ 64 : ℕ) := Number.ltNat_iff.mp (by decide +kernel)
    exact_mod_cast hless
  have hvalid : checkState .production (.obj (iteration ++ [("End", .bool true)])) = [] :=
    List.isEmpty_iff.mp (by decide +kernel)
  obtain ⟨hiff, hvalue⟩ := checkState_maxConcurrency_iff .production iteration
    [("End", .bool true)] greatestCount rfl hvalid hlt.ne
  exact ⟨hread, by exact_mod_cast hvalue _ hread, hiff.mpr (Or.inl ⟨_, hread⟩)⟩

def hugeCount : Number := .float ⟨0x4415AF1D78B58C40, by decide⟩

/-- A whole number that no word has room for passes as a concurrency and cannot be read. -/
theorem huge_count_refused :
    hugeCount.value = 10 ^ 20 ∧
      checkState .production
        (.obj (iteration ++ ("MaxConcurrency", .num hugeCount) :: [("End", .bool true)])) = [] ∧
      ∀ word, readOptional readWord (.num hugeCount) ≠ .ok (some word) := by
  refine ⟨?_, List.isEmpty_iff.mp (by decide +kernel), fun word hread => ?_⟩
  · have hle : hugeCount.value ≤ (10 ^ 20 : ℕ) := Number.value_le_of_gtNat (by decide +kernel)
    have hge : ((10 ^ 20 : ℕ) : ℚ) ≤ hugeCount.value :=
      Number.le_value_of_ltNat (by decide +kernel)
    exact_mod_cast le_antisymm hle hge
  · have hnone : hugeCount.toWord? = none := by decide +kernel
    rw [readOptional_readWord, hnone] at hread
    cases hread

end StateFlow.Playbook
