import StateFlow.Json.Reader
import StateFlow.Proofs.Escape
import StateFlow.Proofs.Entries
import Mathlib.Data.List.TakeWhile

/-!
# What a value costs in a text

A parenthesis in a string stands in the text as itself or as a numeric escape.  So a text that is
read as a value has at least as many opening parentheses and letters `u` as the value is written
with (`cost_le_of_parse`): a text that lost one of them does not read back.  The proof follows the
reader, which pays for every character it adds with a part of the text that it leaves behind.
-/

namespace StateFlow.Json

/-! ## Texts -/

/-- An opening parenthesis, or the letter of an escape that may stand for one. -/
def isCostly (c : Char) : Bool := c = '(' || c = 'u'

def textCost (text : List Char) : Nat := text.countP isCostly

@[simp] theorem textCost_nil : textCost [] = 0 := rfl

@[simp] theorem textCost_append (a b : List Char) :
    textCost (a ++ b) = textCost a + textCost b := List.countP_append

theorem textCost_cons (c : Char) (text : List Char) :
    textCost (c :: text) = textCost [c] + textCost text := textCost_append [c] text

theorem textCost_le_of_suffix {a b : List Char} (hsuffix : a <:+ b) : textCost a ≤ textCost b :=
  hsuffix.sublist.countP_le

theorem textCost_behind {c : Char} {text rest : List Char} (htext : text = c :: rest) :
    textCost rest ≤ textCost text := by
  rw [htext, textCost_cons]
  exact Nat.le_add_left _ _

theorem textCost_eq_zero {text : List Char} (hparen : '(' ∉ text) (hletter : 'u' ∉ text) :
    textCost text = 0 := by
  rw [textCost, List.countP_eq_zero]
  intro c hc
  simp only [isCostly, Bool.or_eq_true, decide_eq_true_eq, not_or]
  refine ⟨?_, ?_⟩
  · rintro rfl
    exact hparen hc
  · rintro rfl
    exact hletter hc

theorem textCost_escape_reverse (text : List Char) :
    textCost (escape text.reverse) = textCost (escape text) :=
  ((List.reverse_perm text).flatMap_right escapeChar).countP_eq isCostly

/-- No character takes more than one costly one to write. -/
theorem textCost_escapeChar_le (c : Char) : textCost (escapeChar c) ≤ 1 := by
  have hdigit : ∀ n < 16, isCostly (hexDigit n) = false := by decide
  unfold escapeChar
  split_ifs with h1 h2 h3 h4 h5 h6 h7 h8
  · decide
  · decide
  · decide
  · decide
  · decide
  · decide
  · decide
  · have hhigh := hdigit (c.toNat / 16) (by omega)
    have hlow := hdigit (c.toNat % 16) (by omega)
    have hletter : isCostly 'u' = true ∧ isCostly '\\' = false ∧ isCostly '0' = false := by decide
    simp [textCost, hhigh, hlow, hletter]
  · exact List.countP_le_length

theorem textCost_escapeChar_of_short {letter c : Char}
    (hescape : Reader.shortEscape? letter = some c) : textCost (escapeChar c) = 0 := by
  unfold Reader.shortEscape? at hescape
  split_ifs at hescape <;> cases hescape <;> decide

theorem escapeChar_of_visible {c : Char} (hquote : c ≠ '"') (hslash : c ≠ '\\')
    (hvisible : ¬ c.toNat < 32) : escapeChar c = [c] := by
  unfold escapeChar
  rw [if_neg hquote, if_neg hslash]
  split_ifs with h1 h2 h3 h4 h5
  · exact absurd (by rw [h1]; decide) hvisible
  · exact absurd (by rw [h2]; decide) hvisible
  · exact absurd (by rw [h3]; decide) hvisible
  · exact absurd (by rw [h4]; decide) hvisible
  · exact absurd (by rw [h5]; decide) hvisible
  · rfl

/-! ## Values -/

mutual

def cost : Json → Nat
  | .str text => textCost (escape text.toList)
  | .arr items => costItems items
  | .obj members => costMembers members
  | v => textCost (scalarText v)

def costItems : List Json → Nat
  | [] => 0
  | v :: rest => cost v + costItems rest

def costMembers : List (String × Json) → Nat
  | [] => 0
  | (k, v) :: rest => textCost (escape k.toList) + cost v + costMembers rest

end

theorem cost_num (n : Number) : cost (.num n) = 0 :=
  textCost_eq_zero (not_mem_number (by decide) (by decide) n)
    (not_mem_number (by decide) (by decide) n)

theorem costItems_append (a b : List Json) : costItems (a ++ b) = costItems a + costItems b := by
  induction a with
  | nil => simp [costItems]
  | cons v a ih => rw [List.cons_append, costItems, ih, costItems, Nat.add_assoc]

theorem costItems_reverse (items : List Json) : costItems items.reverse = costItems items := by
  induction items with
  | nil => rfl
  | cons v items ih =>
      rw [List.reverse_cons, costItems_append, ih, costItems, costItems, costItems]
      omega

theorem costMembers_insert_le (members : Entries Json) (key : String) (v : Json) :
    costMembers (Entries.insert members key v) ≤
      costMembers members + (textCost (escape key.toList) + cost v) := by
  induction members with
  | nil => simp [Entries.insert, costMembers]
  | cons entry members ih =>
      obtain ⟨k, w⟩ := entry
      rw [Entries.insert]
      split
      · simp only [costMembers]
        omega
      · simp only [costMembers]
        omega

/-! ## Written values -/

theorem textCost_quote (text : String) : textCost (quote text) = textCost (escape text.toList) := by
  have hquote : textCost ['"'] = 0 := rfl
  rw [quote, textCost_append, textCost_cons, hquote, Nat.zero_add, Nat.add_zero]

theorem textCost_breakLine (unit level : Nat) : textCost (breakLine unit level) = 0 :=
  textCost_eq_zero (by simp [breakLine, List.mem_replicate])
    (by simp [breakLine, List.mem_replicate])

theorem textCost_joinWith {separator : List Char} (hseparator : textCost separator = 0)
    (lines : List (List Char)) :
    textCost (joinWith separator lines) = textCost lines.flatten := by
  induction lines with
  | nil => rfl
  | cons line lines ih =>
      cases lines with
      | nil => simp [joinWith]
      | cons next lines =>
          have hjoin : joinWith separator (line :: next :: lines) =
              line ++ separator ++ joinWith separator (next :: lines) := rfl
          rw [hjoin, textCost_append, textCost_append, hseparator, ih, Nat.add_zero]
          simp

theorem textCost_bracketed (unit level : Nat) {first last : Char}
    (hbrackets : textCost [first, last] = 0) (lines : List (List Char)) :
    textCost (bracketed unit level first last lines) = textCost lines.flatten := by
  cases lines with
  | nil => exact hbrackets
  | cons line lines =>
      rw [textCost_cons] at hbrackets
      have hseparator : textCost (',' :: breakLine unit (level + 1)) = 0 := by
        rw [textCost_cons, textCost_breakLine]
        rfl
      rw [bracketed, textCost_append, textCost_append, textCost_append, textCost_cons,
        textCost_joinWith hseparator, textCost_breakLine, textCost_breakLine]
      · omega
      · simp

mutual

theorem textCost_prettyAt (unit level : Nat) : (v : Json) →
    textCost (prettyAt unit level v) = cost v
  | .null => rfl
  | .bool _ => rfl
  | .num _ => rfl
  | .str text => textCost_quote text
  | .arr items => by
      rw [prettyAt, textCost_bracketed _ _ (by decide), textCost_prettyItems unit (level + 1) items,
        cost]
  | .obj members => by
      rw [prettyAt, textCost_bracketed _ _ (by decide),
        textCost_prettyMembers unit (level + 1) members, cost]

theorem textCost_prettyItems (unit level : Nat) : (items : List Json) →
    textCost (prettyItems unit level items).flatten = costItems items
  | [] => rfl
  | v :: rest => by
      rw [prettyItems, List.flatten_cons, textCost_append, textCost_prettyAt unit level v,
        textCost_prettyItems unit level rest, costItems]

theorem textCost_prettyMembers (unit level : Nat) : (members : List (String × Json)) →
    textCost (prettyMembers unit level members).flatten = costMembers members
  | [] => rfl
  | (k, v) :: rest => by
      have hcolon : textCost (':' :: ' ' :: prettyAt unit level v) = cost v := by
        rw [← textCost_prettyAt unit level v]
        exact (textCost_append [':', ' '] _).trans (Nat.zero_add _)
      rw [prettyMembers, List.flatten_cons, textCost_append, textCost_append, textCost_quote,
        hcolon, textCost_prettyMembers unit level rest, costMembers]

end

end StateFlow.Json

namespace StateFlow.Json.Reader

open StateFlow.Text

/-! ## Strings -/

theorem textCost_hexEscape (a b c d : Char) (rest : List Char) :
    textCost ('\\' :: 'u' :: a :: b :: c :: d :: rest) =
      1 + textCost [a, b, c, d] + textCost rest := by
  change textCost (['\\', 'u'] ++ [a, b, c, d] ++ rest) = _
  rw [textCost_append, textCost_append]
  rfl

theorem stringBody_cost {text : List Char} {pos : Position} {read : List Char} {s : String}
    {c : Cursor} (hread : stringBody text pos read = .ok (s, c)) :
    textCost (escape s.toList) + textCost c.rest ≤ textCost (escape read) + textCost text := by
  fun_induction stringBody text pos read with
  | case2 rest pos read =>
      cases hread
      rw [String.toList_ofList, textCost_escape_reverse]
      exact Nat.add_le_add_left (textCost_behind rfl) _
  -- The letter of an escape pays for the character that the escape stands for.
  | case4 a b c d rest pos read high hhigh hrange ih =>
      have hchar := textCost_escapeChar_le (Char.ofNat high)
      have hrest := ih hread
      rw [escape_cons, textCost_append] at hrest
      rw [textCost_hexEscape]
      omega
  | case8 a b c d pos read high hhigh hrange hfirst a' b' c' d' rest low hlow hsecond scalar ih =>
      have hchar := textCost_escapeChar_le (Char.ofNat scalar)
      have hrest := ih hread
      rw [escape_cons, textCost_append] at hrest
      rw [textCost_hexEscape, textCost_hexEscape]
      omega
  -- No character that has a short escape costs anything.
  | case11 c rest pos read hnone hu d hescape ih =>
      have hchar := textCost_escapeChar_of_short hescape
      have hrest := ih hread
      rw [escape_cons, textCost_append] at hrest
      rw [textCost_cons, textCost_cons c]
      omega
  | case15 c rest pos read hquote hhex hu hescape hlast hcontrol ih =>
      have hslash : c ≠ '\\' := by
        rintro rfl
        cases rest with
        | nil => exact hlast rfl rfl
        | cons d rest => exact hescape d rest rfl rfl
      have hrest := ih hread
      rw [escape_cons, textCost_append, escapeChar_of_visible hquote hslash hcontrol] at hrest
      rw [textCost_cons]
      omega
  | _ => cases hread

theorem string_cost {c c' : Cursor} {s : String} (hread : string c = .ok (s, c')) :
    textCost (escape s.toList) + textCost c'.rest ≤ textCost c.rest := by
  have hbody := stringBody_cost hread
  rwa [show escape [] = [] from rfl, textCost_nil, Nat.zero_add] at hbody

/-! ## Blanks, words and numbers -/

theorem skipFrom_suffix (text : List Char) (pos : Position) :
    (skipFrom text pos).rest <:+ text := by
  induction text generalizing pos with
  | nil => exact List.suffix_rfl
  | cons d rest ih =>
      rw [skipFrom]
      split
      · exact (ih _).trans (List.suffix_cons d rest)
      · exact List.suffix_rfl

theorem skipBlanks_cost (c : Cursor) : textCost (skipBlanks c).rest ≤ textCost c.rest :=
  textCost_le_of_suffix (skipFrom_suffix c.rest c.pos)

theorem word_cost {letters : List Char} {c c' : Cursor} (hread : word letters c = .ok c') :
    textCost letters + textCost c'.rest ≤ textCost c.rest := by
  induction letters generalizing c with
  | nil =>
      cases hread
      simp
  | cons letter letters ih =>
      rw [word] at hread
      split at hread
      · cases hread
      · next d rest hrest =>
          split at hread
          · next heq =>
              have hmore : textCost letters + textCost c'.rest ≤ textCost rest := ih hread
              rw [hrest, heq, textCost_cons letter, textCost_cons letter rest]
              omega
          · cases hread

theorem dropWhile_cost (text : List Char) :
    textCost (text.dropWhile isDigit) ≤ textCost text :=
  textCost_le_of_suffix (List.dropWhile_suffix isDigit)

theorem finishNumber_rest {n : Option Number} {x : Number} {c c' : Cursor}
    (hread : finishNumber n c = .ok (x, c')) : c'.rest = c.rest := by
  cases n with
  | none => cases hread
  | some n =>
      cases hread
      rfl

theorem exponentPart_cost {negative : Bool} {significand : Nat} {e : Int} {x : Number}
    {c c' : Cursor} (hread : exponentPart negative significand e c = .ok (x, c')) :
    textCost c'.rest ≤ textCost c.rest := by
  unfold exponentPart at hread
  split at hread
  next down c₁ hsigned =>
    have hsign : textCost c₁.rest ≤ textCost c.rest := by
      split at hsigned
      · next rest hrest =>
          cases hsigned
          exact textCost_behind hrest
      · next rest hrest =>
          cases hsigned
          exact textCost_behind hrest
      · cases hsigned
        exact Nat.le_refl _
    have hdigits := (dropWhile_cost c₁.rest).trans hsign
    split at hread
    · cases hread
    · split at hread
      · cases hread
      · simp only at hread
        split at hread
        · rw [finishNumber_rest hread]
          exact hdigits
        · split at hread
          · cases hread
            exact hdigits
          · cases hread

theorem afterFraction_cost {negative : Bool} {significand : Nat} {e : Int} {x : Number}
    {c c' : Cursor} (hread : afterFraction negative significand e c = .ok (x, c')) :
    textCost c'.rest ≤ textCost c.rest := by
  unfold afterFraction at hread
  split at hread
  · next rest hrest => exact (exponentPart_cost hread).trans (textCost_behind hrest)
  · next rest hrest => exact (exponentPart_cost hread).trans (textCost_behind hrest)
  · rw [finishNumber_rest hread]

theorem number_cost {negative : Bool} {x : Number} {c c' : Cursor}
    (hread : number negative c = .ok (x, c')) : textCost c'.rest ≤ textCost c.rest := by
  have hdigits := dropWhile_cost c.rest
  unfold number at hread
  split at hread
  · cases hread
  · split at hread
    · cases hread
    · split at hread
      · cases hread
      · simp only at hread
        split at hread
        · next rest hrest =>
            split at hread
            · cases hread
            · have hfraction := (dropWhile_cost rest).trans (textCost_behind hrest)
              exact (afterFraction_cost hread).trans (hfraction.trans hdigits)
        · exact (afterFraction_cost hread).trans hdigits
        · exact (afterFraction_cost hread).trans hdigits
        · rw [finishNumber_rest hread]
          exact hdigits

/-! ## Values -/

theorem eq_ok_of_bind {α β : Type} {x : Except Fault α} {f : α → Except Fault β} {b : β}
    (hbind : (x >>= f) = .ok b) : ∃ a, x = .ok a ∧ f a = .ok b := by
  cases x with
  | error e => cases hbind
  | ok a => exact ⟨a, rfl, hbind⟩

theorem scalar_cost {v : Json} {c c' : Cursor} (hread : scalar c = .ok (v, c')) :
    cost v + textCost c'.rest ≤ textCost c.rest := by
  unfold scalar at hread
  split at hread
  · cases hread
  · next rest hrest =>
      obtain ⟨c₁, hword, hpure⟩ := eq_ok_of_bind hread
      cases hpure
      exact (word_cost hword).trans (textCost_behind hrest)
  · next rest hrest =>
      obtain ⟨c₁, hword, hpure⟩ := eq_ok_of_bind hread
      cases hpure
      exact (word_cost hword).trans (textCost_behind hrest)
  · next rest hrest =>
      obtain ⟨c₁, hword, hpure⟩ := eq_ok_of_bind hread
      cases hpure
      exact (word_cost hword).trans (textCost_behind hrest)
  · next rest hrest =>
      obtain ⟨⟨text, c₁⟩, hstring, hpure⟩ := eq_ok_of_bind hread
      cases hpure
      exact (string_cost hstring).trans (textCost_behind hrest)
  · next rest hrest =>
      obtain ⟨⟨n, c₁⟩, hnumber, hpure⟩ := eq_ok_of_bind hread
      cases hpure
      rw [cost_num, Nat.zero_add]
      exact (number_cost hnumber).trans (textCost_behind hrest)
  · split at hread
    · obtain ⟨⟨n, c₁⟩, hnumber, hpure⟩ := eq_ok_of_bind hread
      cases hpure
      rw [cost_num, Nat.zero_add]
      exact number_cost hnumber
    · cases hread

theorem nextItem_cost {first : Bool} {c : Cursor} {next : Cursor ⊕ Cursor}
    (hread : nextItem first c = .ok next) :
    textCost (next.elim id id).rest ≤ textCost c.rest := by
  have hblanks := skipBlanks_cost c
  unfold nextItem at hread
  simp only at hread
  split at hread
  · cases hread
  · next rest hrest =>
      cases hread
      exact (textCost_behind hrest).trans hblanks
  · next rest hrest =>
      split at hread
      · cases hread
        exact hblanks
      · have hmore := (skipBlanks_cost ⟨rest, (skipBlanks c).pos.skip 1⟩).trans
          ((textCost_behind hrest).trans hblanks)
        split at hread
        · cases hread
        · cases hread
        · cases hread
          exact hmore
  · split at hread
    · cases hread
      exact hblanks
    · cases hread

theorem nextKey_cost {first : Bool} {c : Cursor} {next : Cursor ⊕ Cursor}
    (hread : nextKey first c = .ok next) :
    textCost (next.elim id id).rest ≤ textCost c.rest := by
  have hblanks := skipBlanks_cost c
  unfold nextKey at hread
  simp only at hread
  split at hread
  · cases hread
  · next rest hrest =>
      cases hread
      exact (textCost_behind hrest).trans hblanks
  · next rest hrest =>
      split at hread
      · cases hread
        exact (textCost_behind hrest).trans hblanks
      · cases hread
  · next rest hrest =>
      split at hread
      · cases hread
      · have hmore := (skipBlanks_cost ⟨rest, (skipBlanks c).pos.skip 1⟩).trans
          ((textCost_behind hrest).trans hblanks)
        split at hread
        · cases hread
        · next rest' hrest' =>
            cases hread
            exact (textCost_behind hrest').trans hmore
        · cases hread
        · cases hread
  · cases hread

theorem colon_cost {c c' : Cursor} (hread : colon c = .ok c') :
    textCost c'.rest ≤ textCost c.rest := by
  have hblanks := skipBlanks_cost c
  unfold colon at hread
  simp only at hread
  split at hread
  · cases hread
  · next rest hrest =>
      cases hread
      exact (textCost_behind hrest).trans hblanks
  · cases hread

mutual

theorem value_cost (fuel depth : Nat) {v : Json} {c c' : Cursor}
    (hread : value fuel depth c = .ok (v, c')) :
    cost v + textCost c'.rest ≤ textCost c.rest := by
  cases fuel with
  | zero => cases hread
  | succ fuel =>
      have hblanks := skipBlanks_cost c
      rw [value] at hread
      simp only at hread
      split at hread
      · next rest hrest =>
          split at hread
          · cases hread
          · obtain ⟨⟨read, c₁⟩, hitems, hpure⟩ := eq_ok_of_bind hread
            cases hpure
            have hall := items_cost fuel (depth - 1) hitems
            rw [costItems, Nat.zero_add] at hall
            exact hall.trans ((textCost_behind hrest).trans hblanks)
      · next rest hrest =>
          split at hread
          · cases hread
          · obtain ⟨⟨read, c₁⟩, hmembers, hpure⟩ := eq_ok_of_bind hread
            cases hpure
            have hall := members_cost fuel (depth - 1) hmembers
            rw [costMembers, Nat.zero_add] at hall
            exact hall.trans ((textCost_behind hrest).trans hblanks)
      · exact (scalar_cost hread).trans hblanks

theorem items_cost (fuel depth : Nat) {read all : List Json} {c c' : Cursor}
    (hread : items fuel depth read c = .ok (all, c')) :
    costItems all + textCost c'.rest ≤ costItems read + textCost c.rest := by
  cases fuel with
  | zero => cases hread
  | succ fuel =>
      rw [items] at hread
      obtain ⟨next, hnext, hread⟩ := eq_ok_of_bind hread
      have hbehind := nextItem_cost hnext
      cases next with
      | inr c₁ =>
          cases hread
          rw [costItems_reverse]
          exact Nat.add_le_add_left hbehind _
      | inl c₁ =>
          obtain ⟨⟨item, c₂⟩, hitem, hread⟩ := eq_ok_of_bind hread
          have hvalue := value_cost fuel depth hitem
          have hrest := items_cost fuel depth hread
          rw [costItems] at hrest
          simp only [Sum.elim_inl, id_eq] at hbehind
          omega

theorem members_cost (fuel depth : Nat) {first : Bool} {read all : Entries Json}
    {c c' : Cursor} (hread : members fuel depth first read c = .ok (all, c')) :
    costMembers all + textCost c'.rest ≤ costMembers read + textCost c.rest := by
  cases fuel with
  | zero => cases hread
  | succ fuel =>
      rw [members] at hread
      obtain ⟨next, hnext, hread⟩ := eq_ok_of_bind hread
      have hbehind := nextKey_cost hnext
      cases next with
      | inr c₁ =>
          cases hread
          exact Nat.add_le_add_left hbehind _
      | inl c₁ =>
          obtain ⟨⟨key, c₂⟩, hkey, hread⟩ := eq_ok_of_bind hread
          obtain ⟨c₃, hcolon, hread⟩ := eq_ok_of_bind hread
          obtain ⟨⟨member, c₄⟩, hmember, hread⟩ := eq_ok_of_bind hread
          have hname := string_cost hkey
          have hvalue := value_cost fuel depth hmember
          have hrest := members_cost fuel depth hread
          have hinsert := costMembers_insert_le read key member
          have hafter := colon_cost hcolon
          simp only [Sum.elim_inl, id_eq] at hbehind
          omega

end

end StateFlow.Json.Reader

namespace StateFlow.Json

/-- A text holds the costly characters of the value it is read as. -/
theorem cost_le_of_parse {text : String} {v : Json} (hparse : parse text = .ok v) :
    cost v ≤ textCost text.toList := by
  obtain ⟨⟨v', c⟩, hvalue, hrest⟩ := Reader.eq_ok_of_bind hparse
  obtain ⟨u, -, hpure⟩ := Reader.eq_ok_of_bind hrest
  cases hpure
  exact (Nat.le_add_right _ _).trans (Reader.value_cost _ _ hvalue)

end StateFlow.Json
