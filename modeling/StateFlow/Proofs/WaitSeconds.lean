import StateFlow.Proofs.CompiledShape
import StateFlow.Proofs.Unwrapping

/-!
# Literal seconds

The shape of a Wait looks at the string in `Seconds`, and the literal pass looks at the line on
which the string is written.  Both take the same strings for wrapped: `accepts_waitSeconds_iff` says
which ones the shape takes, and `strip_wrapped_member` that the pass unwraps them wherever no quote
stands behind them on the line.
-/

namespace StateFlow

open StateFlow.Schema StateFlow.Json StateFlow.Playbook StateFlow.Literal

variable {target : Schema} {marker : String}

/-! ## What the shape takes -/

/-- The pattern of literals: the marker around a text of one line in parentheses. -/
theorem Schema.accepts_literal_iff {text : String} :
    (Pattern.literal marker).accepts text = true ↔
      ∃ inner, inner ≠ [] ∧ '\n' ∉ inner ∧
        text.toList = marker.toList ++ '(' :: inner ++ [')'] := by
  have hline : ∀ inner, Pattern.oneLine inner = true ↔ '\n' ∉ inner := by
    intro inner
    rw [Pattern.oneLine, List.all_eq_true]
    simp only [decide_eq_true_iff]
    exact ⟨fun hall hmem => hall _ hmem rfl, fun hnone c hc heq => hnone (heq ▸ hc)⟩
  have haccepts : (Pattern.literal marker).accepts text = true ↔
      ∃ inner, Pattern.wrapped? marker text.toList = some inner ∧
        inner ≠ [] ∧ Pattern.oneLine inner = true := by
    rw [Pattern.accepts]
    cases Pattern.wrapped? marker text.toList <;> simp
  rw [haccepts]
  constructor
  · rintro ⟨inner, hwrapped, hsome, hone⟩
    exact ⟨inner, hsome, (hline inner).mp hone, wrapped?_eq_some_iff.mp hwrapped⟩
  · rintro ⟨inner, hsome, hnone, htext⟩
    exact ⟨inner, wrapped?_eq_some_iff.mpr htext, hsome, (hline inner).mpr hnone⟩

theorem Playbook.Shape.accepts_waitSeconds_iff {text : String} :
    (Shape.waitSeconds marker).Accepts target (.str text) ↔
      ∃ inner, inner ≠ [] ∧ '\n' ∉ inner ∧
        text.toList = marker.toList ++ '(' :: inner ++ [')'] := by
  rw [← Schema.accepts_literal_iff, Shape.waitSeconds, Inner.Accepts, Inner.resolve]
  simp [TypeName.accepts]

/-- The seconds of a Wait that passes are what the shape of seconds takes. -/
theorem Playbook.accepts_seconds_of_checkState {s : Settings} {members : Entries Json} {v : Json}
    (hkind : Entries.get? members "Type" = some (.str "Wait"))
    (hvalid : Playbook.checkState s (.obj members) = [])
    (hseconds : Entries.get? members "Seconds" = some v) :
    (Shape.waitSeconds s.literalMarker).Accepts (Shape.state s.literalMarker) v := by
  have hshape := (checkState_eq_nil .wait hkind).mp hvalid
  rw [Shape.ofKind, Shape.wait, Shape.accepts_kindObject] at hshape
  obtain ⟨inner, hinner, haccepts⟩ := hshape.2.1 _ (Entries.mem_of_get? hseconds)
  cases hinner
  exact haccepts

/-! ## What the pass unwraps -/

/-- A wrapped member comes out unquoted, whatever stands around it on its line, as long as that
holds no quote. -/
theorem Literal.strip_wrapped_member (hplain : Plain marker) (hcolon : ':' ∉ marker.toList)
    {indent tail inner : List Char} {name text : String} (hindent : '"' ∉ indent)
    (htail : '"' ∉ tail) (hname : ¬ Opens marker name.toList)
    (htext : text.toList = marker.toList ++ '(' :: inner ++ [')']) :
    strip marker (indent ++ (quote name ++ ':' :: ' ' :: (quote text ++ tail))) =
      indent ++ (quote name ++ ':' :: ' ' :: (escape inner ++ tail)) := by
  have hself : strip marker tail = tail :=
    (strip_eq_self_iff marker tail).mpr (not_hasWrapper_unquoted htail)
  rw [strip_unquoted_append hindent, strip_name_append hplain hcolon hname,
    quote_eq_wrapper hplain htext,
    strip_wrapper_append (newline_not_mem_escape inner) (not_closes_unquoted htail), hself]

/-- A string that passes as the seconds of a Wait is a text in the marker, and the literal pass
leaves that text alone of it on the line of the member. -/
theorem Literal.strip_waitSeconds (members : Entries Json) (text : String)
    (hkind : Entries.get? members "Type" = some (.str "Wait"))
    (hvalid : checkState .production (.obj members) = [])
    (hseconds : Entries.get? members "Seconds" = some (.str text)) :
    ∃ inner, inner ≠ [] ∧
      text.toList = Settings.production.literalMarker.toList ++ '(' :: inner ++ [')'] ∧
      ∀ (spaces : Nat) (tail : List Char), tail = [] ∨ tail = [','] →
        strip Settings.production.literalMarker
            (List.replicate spaces ' ' ++ "\"Seconds\": ".toList ++ quote text ++ tail) =
          List.replicate spaces ' ' ++ "\"Seconds\": ".toList ++ escape inner ++ tail := by
  obtain ⟨inner, hsome, -, htext⟩ := Shape.accepts_waitSeconds_iff.mp
    (accepts_seconds_of_checkState hkind hvalid hseconds)
  refine ⟨inner, hsome, htext, fun spaces tail htail => ?_⟩
  have hname : "\"Seconds\": ".toList = quote "Seconds" ++ [':', ' '] := by decide
  have hopens : ¬ Opens Settings.production.literalMarker "Seconds".toList := by
    unfold Opens
    decide +kernel
  have hindent : '"' ∉ List.replicate spaces ' ' := by simp [List.mem_replicate]
  have hquote : '"' ∉ tail := by
    rcases htail with rfl | rfl <;> decide
  have hcolon : ':' ∉ Settings.production.literalMarker.toList := by decide +kernel
  rw [hname]
  simpa using strip_wrapped_member production_plain hcolon hindent hquote hopens htext

def listedSeconds : String :=
  "apb_render_nonstring_value([\"apb_render_nonstring_value(1)\",\t(\\2)])"

theorem Literal.strip_waitSeconds_listedSeconds :
    checkState .production
        (.obj [("Type", .str "Wait"), ("Seconds", .str listedSeconds), ("End", .bool true)]) = [] ∧
      strip Settings.production.literalMarker
          (List.replicate 8 ' ' ++ "\"Seconds\": ".toList ++ quote listedSeconds ++ [',']) =
        ("        \"Seconds\": "
          ++ "[\\\"apb_render_nonstring_value(1)\\\",\\t(\\\\2)],").toList := by
  have hvalid : checkState .production
      (.obj [("Type", .str "Wait"), ("Seconds", .str listedSeconds), ("End", .bool true)]) = [] :=
    List.isEmpty_iff.mp (by decide +kernel)
  obtain ⟨inner, -, htext, hstrip⟩ := strip_waitSeconds _ listedSeconds rfl hvalid rfl
  have hinner : Pattern.wrapped? Settings.production.literalMarker listedSeconds.toList =
      some "[\"apb_render_nonstring_value(1)\",\t(\\2)]".toList := by
    decide +kernel
  rw [wrapped?_eq_some_iff.mpr htext, Option.some.injEq] at hinner
  refine ⟨hvalid, ?_⟩
  rw [hstrip 8 [','] (Or.inr rfl), hinner]
  decide +kernel

end StateFlow
