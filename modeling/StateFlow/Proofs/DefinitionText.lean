import StateFlow.Proofs.ClosedReferences
import StateFlow.Proofs.Literal

/-!
# The text of a definition

The literal pass unwraps what looks like a wrapper in the text of a definition.  A string is taken
for one if the marker is opened at its beginning or at any quote inside it, and the name of a member
may open what the text behind it closes.  `compile_text_eq_iff` says that the pass changes nothing
exactly if the definition has no such place.
-/

namespace StateFlow.Json

mutual

def allTexts : Json → List String
  | .str text => [text]
  | .arr items => allTextsItems items
  | .obj members => allTextsMembers members
  | _ => []

def allTextsItems : List Json → List String
  | [] => []
  | v :: rest => allTexts v ++ allTextsItems rest

def allTextsMembers : List (String × Json) → List String
  | [] => []
  | (k, v) :: rest => k :: allTexts v ++ allTextsMembers rest

end

end StateFlow.Json

namespace StateFlow.Literal

variable {marker : String}

/-! ## Quoted strings -/

/-- The marker is opened at the beginning of a text or at a quote in it. -/
def Opens (marker : String) (text : List Char) : Prop := opening marker <:+: '"' :: text

/-- The same, and the text ends with a closing parenthesis behind that. -/
def Wraps (marker : String) (text : List Char) : Prop :=
  ∃ inner, opening marker ++ inner ++ [')'] <:+ '"' :: text

theorem Plain.middle (hplain : Plain marker) :
    ∀ c ∈ marker.toList ++ ['('], Json.escapeChar c = [c] := by
  intro c hc
  rcases List.mem_append.mp hc with hmem | hmem
  · exact hplain c hmem
  · rw [List.mem_singleton.mp hmem]
    decide

/-- What stands behind an opening in a quoted text is the rest of the text, escaped. -/
theorem quoted_eq_opening (hplain : Plain marker) {text tail before rest : List Char}
    (htail : '(' ∉ tail)
    (heq : '"' :: Json.escape text ++ '"' :: tail = before ++ opening marker ++ rest) :
    ∃ back, opening marker ++ back <:+ '"' :: text ∧ rest = Json.escape back ++ '"' :: tail := by
  rcases Json.append_eq_append_cons heq.symm with ⟨w, hw, hrest⟩ | ⟨w, hfront, hrest⟩
  · -- The opening would end behind the closing quote, where no parenthesis stands.
    have hparen : (before ++ '"' :: marker.toList) ++ ['('] =
        '"' :: Json.escape text ++ '"' :: w := by
      simpa [opening] using hw
    rcases Json.append_eq_append_cons hparen with ⟨w', -, rfl⟩ | ⟨w', -, hquote⟩
    · exact absurd (by simp [hrest]) htail
    · have hmem : '"' ∈ ['('] := by simp [hquote]
      simp at hmem
  · cases before with
    | nil =>
        have hstart : Json.escape text = (marker.toList ++ ['(']) ++ w := by
          simpa [opening] using hfront
        obtain ⟨back, rfl, rfl⟩ := Json.escape_eq_plain_append hplain.middle hstart
        exact ⟨back, ⟨[], by simp [opening]⟩, hrest⟩
    | cons c before =>
        have hinside : Json.escape text = before ++ '"' :: (marker.toList ++ ['('] ++ w) := by
          simpa [opening] using (List.cons.inj hfront).2
        obtain ⟨front, back, rfl, -, hback⟩ := Json.escape_eq_append_quote hinside
        obtain ⟨back, rfl, rfl⟩ := Json.escape_eq_plain_append hplain.middle hback.symm
        exact ⟨back, ⟨'"' :: front, by simp [opening]⟩, hrest⟩

theorem opening_quoted (hplain : Plain marker) {text back : List Char} (tail : List Char)
    (hback : opening marker ++ back <:+ '"' :: text) :
    opening marker ++ (Json.escape back ++ '"' :: tail) <:+
      '"' :: Json.escape text ++ '"' :: tail := by
  have hmiddle : Json.escape (marker.toList ++ ['(']) = marker.toList ++ ['('] :=
    Json.escape_plain hplain.middle
  obtain ⟨before, heq⟩ := hback
  cases before with
  | nil =>
      obtain rfl : text = marker.toList ++ ['('] ++ back := by
        simpa [opening] using heq.symm
      refine ⟨[], ?_⟩
      rw [Json.escape_append, hmiddle]
      simp [opening]
  | cons c before =>
      obtain rfl : text = before ++ '"' :: (marker.toList ++ ['('] ++ back) := by
        simpa [opening] using (List.cons.inj heq).2.symm
      refine ⟨'"' :: Json.escape before ++ ['\\'], ?_⟩
      simp only [Json.escape_append, Json.escape_cons, hmiddle]
      simp [opening, Json.escapeChar]

theorem hasOpening_quoted (hplain : Plain marker) {text tail : List Char} (htail : '(' ∉ tail)
    (hline : '\n' ∉ tail) :
    HasOpening marker ('"' :: Json.escape text ++ '"' :: tail) ↔ Opens marker text := by
  constructor
  · rintro ⟨before, rest, heq, -⟩
    obtain ⟨back, hback, -⟩ := quoted_eq_opening hplain htail heq
    exact (List.prefix_append _ back).isInfix.trans hback.isInfix
  · rintro ⟨before, back, heq⟩
    have hback : opening marker ++ back <:+ '"' :: text := ⟨before, by simp [← heq]⟩
    obtain ⟨before', heq'⟩ := opening_quoted hplain tail hback
    refine ⟨before', Json.escape back ++ '"' :: tail, by simp [← heq'], ?_⟩
    simp [Json.newline_not_mem_escape, hline]

theorem not_closes_unquoted {tail : List Char} (hquote : '"' ∉ tail) : ¬ Closes ('"' :: tail) := by
  rintro ⟨inner, -, after, heq⟩
  cases inner with
  | nil => simp at heq
  | cons c inner =>
      obtain ⟨-, htail⟩ : c = '"' ∧ inner ++ ')' :: '"' :: after = tail := by simpa using heq
      exact hquote (by simp [← htail])

/-- A quoted text closes a wrapper by its last character, if nothing behind it does. -/
theorem closes_quoted {text tail : List Char} (htail : ¬ Closes ('"' :: tail)) :
    Closes (Json.escape text ++ '"' :: tail) ↔ text.getLast? = some ')' := by
  constructor
  · rintro ⟨inner, hline, after, heq⟩
    have hsplit : (inner ++ [')']) ++ '"' :: after = Json.escape text ++ '"' :: tail := by
      simpa using heq
    rcases Json.append_eq_append_cons hsplit with ⟨w, hinner, hw⟩ | ⟨w, htext, hw⟩
    · -- The closing stands behind the quote at the end of the text.
      rcases List.eq_nil_or_concat w with rfl | ⟨front, c, rfl⟩
      · have hlast := congrArg List.getLast? hinner
        simp at hlast
      · have hends : inner ++ [')'] = (Json.escape text ++ '"' :: front) ++ [c] := by
          simpa using hinner
        obtain ⟨rfl, hc⟩ := List.append_inj' hends rfl
        obtain rfl : ')' = c := by simpa using hc
        simp only [List.mem_append, not_or] at hline
        exact absurd ⟨'"' :: front, hline.2, after, by simp [hw]⟩ htail
    · cases w with
      | nil => exact Json.escape_getLast? (by simpa using htext)
      | cons c w =>
          obtain ⟨rfl, -⟩ := List.cons.inj hw
          -- A quote inside the text has a backslash in front of it, and no parenthesis.
          obtain ⟨front, back, -, hback, -⟩ := Json.escape_eq_append_quote htext
          have hlast := congrArg List.getLast? hback
          simp at hlast
  · intro hlast
    obtain ⟨front, rfl⟩ := List.getLast?_eq_some_iff.mp hlast
    refine ⟨Json.escape front, Json.newline_not_mem_escape front, tail, ?_⟩
    simp [Json.escape, Json.escapeChar]

theorem closes_cons {c : Char} {text : List Char} (hparen : c ≠ ')') (hline : c ≠ '\n') :
    Closes (c :: text) ↔ Closes text := by
  constructor
  · rintro ⟨inner, hinner, after, heq⟩
    cases inner with
    | nil => exact absurd (List.cons.inj heq).1.symm hparen
    | cons d inner =>
        simp only [List.mem_cons, not_or] at hinner
        exact ⟨inner, hinner.2, after, (List.cons.inj heq).2⟩
  · rintro ⟨inner, hinner, after, rfl⟩
    exact ⟨c :: inner, by simp [hinner, Ne.symm hline], after, rfl⟩

theorem hasWrapper_quoted (hplain : Plain marker) {text tail : List Char} (htail : '(' ∉ tail)
    (hquote : '"' ∉ tail) :
    HasWrapper marker ('"' :: Json.escape text ++ '"' :: tail) ↔ Wraps marker text := by
  constructor
  · rintro ⟨inner, hline, before, after, heq⟩
    have hopening : '"' :: Json.escape text ++ '"' :: tail =
        before ++ opening marker ++ (inner ++ [')', '"'] ++ after) := by
      simp [← heq, wrapper]
    obtain ⟨back, hback, hrest⟩ := quoted_eq_opening hplain htail hopening
    have hcloses : Closes (Json.escape back ++ '"' :: tail) := ⟨inner, hline, after, hrest⟩
    obtain ⟨front, rfl⟩ := List.getLast?_eq_some_iff.mp
      ((closes_quoted (not_closes_unquoted hquote)).mp hcloses)
    exact ⟨front, by simpa using hback⟩
  · rintro ⟨inner, hinner⟩
    have hback : opening marker ++ (inner ++ [')']) <:+ '"' :: text := by simpa using hinner
    obtain ⟨before, heq⟩ := opening_quoted hplain tail hback
    refine ⟨Json.escape inner, Json.newline_not_mem_escape inner, before, tail, ?_⟩
    rw [← heq]
    simp [wrapper, Json.escape, Json.escapeChar]

/-! ## Written values -/

def EndsClosed : Json → Prop
  | .str text => text.toList.getLast? = some ')'
  | _ => False

mutual

/-- The pass takes something in a value for a wrapper: a string, the name of a member, or a name
together with the text behind it. -/
def Wrapped (marker : String) : Json → Prop
  | .str text => Wraps marker text.toList
  | .arr items => WrappedItems marker items
  | .obj members => WrappedMembers marker members
  | _ => False

def WrappedItems (marker : String) : List Json → Prop
  | [] => False
  | v :: rest => Wrapped marker v ∨ WrappedItems marker rest

def WrappedMembers (marker : String) : List (String × Json) → Prop
  | [] => False
  | (k, v) :: rest =>
    Wraps marker k.toList ∨ (Opens marker k.toList ∧ EndsClosed v) ∨ Wrapped marker v
      ∨ WrappedMembers marker rest

end

theorem wrappedMembers_iff {members : List (String × Json)} :
    WrappedMembers marker members ↔ ∃ entry ∈ members, Wraps marker entry.1.toList ∨
      (Opens marker entry.1.toList ∧ EndsClosed entry.2) ∨ Wrapped marker entry.2 := by
  induction members with
  | nil => simp [WrappedMembers]
  | cons entry rest ih =>
      rw [WrappedMembers, List.exists_mem_cons_iff, ih, or_assoc, or_assoc]

theorem Wraps.getLast? {text : List Char} (hwraps : Wraps marker text) :
    text.getLast? = some ')' := by
  obtain ⟨inner, before, heq⟩ := hwraps
  have hlast := congrArg List.getLast? heq
  cases text with
  | nil => simp at hlast
  | cons c text => simpa using hlast.symm

mutual

/-- Nothing is taken for a wrapper where no text ends with a closing parenthesis. -/
theorem not_wrapped_of_open : (v : Json) →
    (∀ text ∈ v.allTexts, text.toList.getLast? ≠ some ')') → ¬ Wrapped marker v
  | .str text, hopen, hwraps => hopen text (by simp [Json.allTexts]) (Wraps.getLast? hwraps)
  | .arr items, hopen, hwrapped => not_wrappedItems_of_open items hopen hwrapped
  | .obj members, hopen, hwrapped => not_wrappedMembers_of_open members hopen hwrapped
  | .null, _, hwrapped | .bool _, _, hwrapped | .num _, _, hwrapped => hwrapped

theorem not_wrappedItems_of_open : (items : List Json) →
    (∀ text ∈ Json.allTextsItems items, text.toList.getLast? ≠ some ')') →
    ¬ WrappedItems marker items
  | [], _, hwrapped => hwrapped
  | v :: rest, hopen, hwrapped => by
      rw [Json.allTextsItems, List.forall_mem_append] at hopen
      rcases hwrapped with hfirst | hrest
      · exact not_wrapped_of_open v hopen.1 hfirst
      · exact not_wrappedItems_of_open rest hopen.2 hrest

theorem not_wrappedMembers_of_open : (members : List (String × Json)) →
    (∀ text ∈ Json.allTextsMembers members, text.toList.getLast? ≠ some ')') →
    ¬ WrappedMembers marker members
  | [], _, hwrapped => hwrapped
  | (k, v) :: rest, hopen, hwrapped => by
      rw [Json.allTextsMembers, List.forall_mem_append, List.forall_mem_cons] at hopen
      rcases hwrapped with hname | ⟨-, hends⟩ | hvalue | hrest
      · exact hopen.1.1 hname.getLast?
      · cases v with
        | str text => exact hopen.1.2 text (by simp [Json.allTexts]) hends
        | _ => exact hends
      · exact not_wrapped_of_open v hopen.1.2 hvalue
      · exact not_wrappedMembers_of_open rest hopen.2 hrest

end

theorem hasWrapper_joinWith (hplain : Plain marker) {spaces : List Char} (hspaces : '"' ∉ spaces)
    (lines : List (List Char)) :
    HasWrapper marker (Json.joinWith (',' :: '\n' :: spaces) lines) ↔
      ∃ line ∈ lines, HasWrapper marker line := by
  induction lines with
  | nil => simp [Json.joinWith, not_hasWrapper_unquoted]
  | cons line lines ih =>
      cases lines with
      | nil => simp [Json.joinWith]
      | cons next lines =>
          have hsplit : Json.joinWith (',' :: '\n' :: spaces) (line :: next :: lines) =
              (line ++ [',']) ++ '\n' ::
                (spaces ++ Json.joinWith (',' :: '\n' :: spaces) (next :: lines)) := by
            simp [Json.joinWith]
          rw [hsplit, hasWrapper_append_newline hplain, hasWrapper_append_unquoted (by simp),
            hasWrapper_unquoted_append hspaces, ih]
          simp

/-- The lines of a container hold the wrappers of its items. -/
theorem hasWrapper_bracketed (hplain : Plain marker) {unit level : Nat} {first last : Char}
    (hfirst : first ≠ '"') (hlast : last ≠ '"') (before : List Char) (lines : List (List Char)) :
    HasWrapper marker (before ++ Json.bracketed unit level first last lines) ↔
      HasWrapper marker before ∨ ∃ line ∈ lines, HasWrapper marker line := by
  have hspaces : ∀ n, '"' ∉ List.replicate n ' ' := by simp [List.mem_replicate]
  cases lines with
  | nil => simp [Json.bracketed, hasWrapper_append_unquoted, Ne.symm hfirst, Ne.symm hlast]
  | cons line lines =>
      have hsplit : before ++ Json.bracketed unit level first last (line :: lines) =
          (before ++ [first]) ++ '\n' :: ((List.replicate (unit * (level + 1)) ' '
            ++ Json.joinWith (',' :: Json.breakLine unit (level + 1)) (line :: lines))
              ++ '\n' :: (List.replicate (unit * level) ' ' ++ [last])) := by
        simp [Json.bracketed, Json.breakLine]
      rw [hsplit, hasWrapper_append_newline hplain, hasWrapper_append_newline hplain,
        hasWrapper_append_unquoted (by simpa using Ne.symm hfirst),
        hasWrapper_unquoted_append (hspaces _), Json.breakLine,
        hasWrapper_joinWith hplain (hspaces _), hasWrapper_unquoted_append (hspaces _)]
      simp [not_hasWrapper_unquoted, Ne.symm hlast]

mutual

/-- Behind text that does not end with a parenthesis, the text of a value has a wrapper exactly if
the value is wrapped, or closes what the text in front of it has opened. -/
theorem hasWrapper_prettyAt (hplain : Plain marker) (unit level : Nat) (before : List Char)
    (hbefore : before.getLast? ≠ some ')') : (v : Json) →
    (HasWrapper marker (before ++ Json.prettyAt unit level v) ↔
      HasWrapper marker before ∨ (HasOpening marker before ∧ EndsClosed v) ∨ Wrapped marker v)
  | .null => by
      simp [Json.prettyAt, Json.scalarText, hasWrapper_append_unquoted, EndsClosed, Wrapped]
  | .bool true => by
      simp [Json.prettyAt, Json.scalarText, hasWrapper_append_unquoted, EndsClosed, Wrapped]
  | .bool false => by
      simp [Json.prettyAt, Json.scalarText, hasWrapper_append_unquoted, EndsClosed, Wrapped]
  | .num n => by
      have hquote : '"' ∉ n.text := Json.not_mem_number (by decide) (by decide) n
      simp [Json.prettyAt, Json.scalarText, hasWrapper_append_unquoted hquote, EndsClosed, Wrapped]
  | .str text => by
      have hquote : Json.prettyAt unit level (.str text) =
          '"' :: (Json.escape text.toList ++ ['"']) := by
        simp [Json.prettyAt, Json.scalarText, Json.quote]
      rw [hquote, hasWrapper_append_quote hplain hbefore,
        closes_cons (by decide) (by decide),
        closes_quoted (not_closes_unquoted (by simp)), ← List.cons_append,
        hasWrapper_quoted hplain (by simp) (by simp), EndsClosed, Wrapped]
      tauto
  | .arr items => by
      rw [Json.prettyAt, hasWrapper_bracketed hplain (by decide) (by decide),
        hasWrapper_prettyItems hplain unit (level + 1) items]
      simp [EndsClosed, Wrapped]
  | .obj members => by
      rw [Json.prettyAt, hasWrapper_bracketed hplain (by decide) (by decide),
        hasWrapper_prettyMembers hplain unit (level + 1) members]
      simp [EndsClosed, Wrapped]

theorem hasWrapper_prettyItems (hplain : Plain marker) (unit level : Nat) : (items : List Json) →
    ((∃ line ∈ Json.prettyItems unit level items, HasWrapper marker line) ↔
      WrappedItems marker items)
  | [] => by simp [Json.prettyItems, WrappedItems]
  | v :: rest => by
      have hv := hasWrapper_prettyAt hplain unit level [] (by simp) v
      rw [List.nil_append] at hv
      rw [Json.prettyItems, List.exists_mem_cons_iff, hasWrapper_prettyItems hplain unit level rest,
        hv, WrappedItems]
      simp [not_hasWrapper_unquoted, HasOpening, opening]

theorem hasWrapper_prettyMembers (hplain : Plain marker) (unit level : Nat) :
    (members : List (String × Json)) →
    ((∃ line ∈ Json.prettyMembers unit level members, HasWrapper marker line) ↔
      WrappedMembers marker members)
  | [] => by simp [Json.prettyMembers, WrappedMembers]
  | (k, v) :: rest => by
      have hline : Json.quote k ++ ':' :: ' ' :: Json.prettyAt unit level v =
          ('"' :: Json.escape k.toList ++ '"' :: [':', ' ']) ++ Json.prettyAt unit level v := by
        simp [Json.quote]
      have hlast : ('"' :: Json.escape k.toList ++ '"' :: [':', ' ']).getLast? ≠ some ')' := by
        rw [List.getLast?_append]
        simp
      have hv := hasWrapper_prettyAt hplain unit level _ hlast v
      rw [Json.prettyMembers, List.exists_mem_cons_iff,
        hasWrapper_prettyMembers hplain unit level rest, hline, hv,
        hasWrapper_quoted hplain (by decide) (by decide),
        hasOpening_quoted hplain (by decide) (by decide), WrappedMembers]
      simp only [or_assoc]

end

/-- The pass leaves the text of a value alone exactly if it takes nothing in the value for a
wrapper. -/
theorem strip_pretty_eq_self_iff (hplain : Plain marker) (unit : Nat) (v : Json) :
    strip marker (v.pretty unit) = v.pretty unit ↔ ¬ Wrapped marker v := by
  have hv := hasWrapper_prettyAt hplain unit 0 [] (by simp) v
  rw [strip_eq_self_iff, Json.pretty, ← List.nil_append (Json.prettyAt unit 0 v), hv]
  simp [not_hasWrapper_unquoted, HasOpening, opening]

end StateFlow.Literal

namespace StateFlow

open StateFlow.Literal

/-! ## Compiled definitions -/

theorem production_plain : Plain Settings.production.literalMarker := by
  have hall : Settings.production.literalMarker.toList.all
      (fun c => Json.escapeChar c == [c]) = true := by decide +kernel
  exact fun c hc => eq_of_beq (List.all_eq_true.mp hall c hc)

theorem compile_text {s : Settings} {options : Options} {v : Json} {c : Compiled}
    (hok : compile s options v = .ok c) : c.text = c.definition.text s := by
  obtain ⟨d, x, -, -, rfl⟩ := compile_eq_assemble hok
  rfl

theorem text_eq_prettyText_iff {s : Settings} (hplain : Plain s.literalMarker) (d : Definition) :
    d.text s = d.toJson.prettyText 4 ↔ ¬ Wrapped s.literalMarker d.toJson := by
  rw [Definition.text, Definition.prettyChars, Json.prettyText, String.ofList_inj,
    strip_pretty_eq_self_iff hplain]

/-- The text of a compiled playbook is the written definition, exactly if the literal pass takes
nothing in the definition for a wrapper. -/
theorem compile_text_eq_iff (options : Options) (v : Json) (c : Compiled)
    (hok : compile .production options v = .ok c) :
    c.text = c.definition.toJson.prettyText 4 ↔
      ¬ Wrapped Settings.production.literalMarker c.definition.toJson := by
  rw [compile_text hok]
  exact text_eq_prettyText_iff production_plain _

def commented (comment : String) : Json := .obj
  [("Playbook", .str "Commented"), ("Comment", .str comment), ("StartAt", .str "Done"),
    ("States", .obj [("Done", .obj [("Type", .str "Succeed")])])]

theorem compile_text_eq_iff_commented :
    ∃ c, compile .production {} (commented "x\"apb_render_nonstring_value(1") = .ok c ∧
      ¬ Wrapped Settings.production.literalMarker c.definition.toJson ∧
        c.text = c.definition.toJson.prettyText 4 := by
  let v := commented "x\"apb_render_nonstring_value(1"
  obtain ⟨c, hc⟩ := exists_of_isOk (x := compile .production {} v) (by decide +kernel)
  have hopen : (compile .production {} v).toOption.map
      (fun c => c.definition.toJson.allTexts.all fun text => text.toList.getLast? ≠ some ')') =
        some true := by
    decide +kernel
  simp only [hc, Except.toOption, Option.map_some, Option.some.injEq, List.all_eq_true,
    decide_eq_true_eq] at hopen
  have hnone : ¬ Wrapped Settings.production.literalMarker c.definition.toJson :=
    not_wrapped_of_open _ hopen
  exact ⟨c, hc, hnone, (compile_text_eq_iff {} v c hc).mpr hnone⟩

theorem wrapped_of_comment {marker : String} {d : Definition}
    (hwraps : Wraps marker d.comment.toList) : Wrapped marker d.toJson := by
  rw [Definition.toJson, Wrapped, wrappedMembers_iff]
  refine ⟨("Comment", .str d.comment), by simp, Or.inr (Or.inr ?_)⟩
  rwa [Wrapped]

/-- A quote inside a string opens a wrapper, though no string and no name of the definition begins
with the marker. -/
theorem quote_opens_wrapper :
    ∃ c, compile .production {} (commented "x\"apb_render_nonstring_value(1)") = .ok c ∧
      (∀ text ∈ c.definition.toJson.allTexts,
        ¬ (Settings.production.literalMarker ++ "(").toList <+: text.toList) ∧
      c.text ≠ c.definition.toJson.prettyText 4 := by
  have hfacts : ((compile .production {} (commented "x\"apb_render_nonstring_value(1)")).map
      fun c => (c.definition.comment, c.definition.toJson.allTexts.any fun text =>
        (Settings.production.literalMarker ++ "(").toList.isPrefixOf text.toList)).toOption =
      some ("x\"apb_render_nonstring_value(1)", false) := by decide +kernel
  cases hc : compile .production {} (commented "x\"apb_render_nonstring_value(1)") with
  | error e => simp [hc, Except.map, Except.toOption] at hfacts
  | ok c =>
      simp only [hc, Except.map, Except.toOption, Option.some.injEq, Prod.mk.injEq] at hfacts
      obtain ⟨hcomment, hnone⟩ := hfacts
      refine ⟨c, rfl, ?_, ?_⟩
      · intro text htext hprefix
        rw [List.any_eq_false] at hnone
        exact hnone text htext (List.isPrefixOf_iff_prefix.mpr hprefix)
      · rw [Ne, compile_text hc, text_eq_prettyText_iff production_plain, not_not]
        apply wrapped_of_comment
        rw [hcomment]
        exact ⟨['1'], ['"', 'x'], by decide +kernel⟩

end StateFlow
