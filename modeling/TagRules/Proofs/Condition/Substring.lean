import TagRules.Condition.Evaluate
import TagRules.Proofs.Text.LowerCase

set_option autoImplicit false

namespace TagRules

namespace Operator

def finds (part whole : String) : Bool :=
  Text.occursIn (Text.lower part).toList (Text.lower whole).toList

theorem contains_text (field second : Value) (part whole : String) (shown : field.text? = some whole) :
    Operator.contains.apply field (.text part) second = .ok (finds part whole) ∧
      Operator.notContains.apply field (.text part) second = .ok !finds part whole := by
  cases field <;> cases shown <;> exact ⟨rfl, rfl⟩

theorem finds_iff (part whole : String) :
    finds part whole = true ↔ Text.lowerChars part.toList <:+: Text.lowerChars whole.toList := by
  rw [finds, Text.lower, Text.lower, String.toList_ofList, String.toList_ofList, Text.occurs_in_iff]

theorem finds_unsevered (before part after : String)
    (unsevered : ¬ Text.Severed before.toList part.toList after.toList) :
    finds part (before ++ part ++ after) = true := by
  rw [finds_iff, String.toList_append, String.toList_append, Text.lower_chars_around,
    Text.lower_between_unsevered _ _ _ unsevered]
  exact List.infix_append _ _ _

end Operator

namespace Condition

def Searched (part whole : String) (found : Bool) : Prop :=
  ∀ (record : Value) (path : String) (second : Value), (Path.resolve record path).text? = some whole →
    (single path (.known .contains) (.text part) second).evaluate record = .pure found ∧
    (single path (.known .notContains) (.text part) second).evaluate record = .pure !found

theorem searched (part whole : String) : Searched part whole (Operator.finds part whole) := by
  intro record path second shown
  obtain ⟨contained, notContained⟩ := Operator.contains_text _ second part whole shown
  exact ⟨congrArg Traced.ofExcept contained, congrArg Traced.ofExcept notContained⟩

theorem literal_text_found (part : String) :
    (∀ before after : String, ¬ Text.Severed before.toList part.toList after.toList →
      Searched part (before ++ part ++ after) true) ∧
    ((∃ before after, Text.Severed before part.toList after) →
      ∃ before after : String, Searched part (before ++ part ++ after) false) := by
  refine ⟨fun before after unsevered => ?_, ?_⟩
  · rw [← Operator.finds_unsevered before part after unsevered]
    exact searched part _
  · rintro ⟨before, after, severed⟩
    obtain ⟨others, next, hidden⟩ := Text.severed_hidden severed
    refine ⟨String.ofList others, String.ofList next, ?_⟩
    have lost : Operator.finds part (String.ofList others ++ part ++ String.ofList next) = false := by
      rw [← Bool.not_eq_true, Operator.finds_iff]
      simpa using hidden
    rw [← lost]
    exact searched part _

theorem whole_word_found :
    let record : Value := .mapping [(.text "street", .text "ΟΔΟΣ ΕΡΜΟΥ")]
    (single "street" (.known .contains) (.text "ΟΔΟΣ") .null).evaluate record = .pure true ∧
      (single "street" (.known .notContains) (.text "ΟΔΟΣ") .null).evaluate record = .pure false ∧
      ∃ before after : String, Searched "ΟΔΟΣ" (before ++ "ΟΔΟΣ" ++ after) false := by
  intro record
  have unsevered : ¬ Text.Severed "".toList "ΟΔΟΣ".toList " ΕΡΜΟΥ".toList := by
    intro severed
    rcases severed.meets_word with begun | goesOn
    · exact absurd begun (by decide)
    · exact absurd goesOn (by decide)
  have split : "ΟΔΟΣ".toList = ['Ο', 'Δ', 'Ο'] ++ 'Σ' :: [] := rfl
  have severed : Text.Severed [] "ΟΔΟΣ".toList ['Τ'] := .last rfl split (by decide) rfl (by decide)
  obtain ⟨found, hidden⟩ := literal_text_found "ΟΔΟΣ"
  obtain ⟨contained, notContained⟩ := found "" " ΕΡΜΟΥ" unsevered record "street" .null rfl
  exact ⟨contained, notContained, hidden ⟨[], ['Τ'], severed⟩⟩

theorem first_half_of_word_hidden :
    ¬ ∀ (record : Value) (path before part after : String),
      (Path.resolve record path).text? = some (before ++ part ++ after) →
      ((single path (.known .contains) (.text part) .null).evaluate record).result = .ok true := by
  intro always
  let record : Value := .mapping [(.text "street", .text "ΟΔΟΣΤΡΩΜΑ")]
  have found := always record "street" "" "ΟΔΟΣ" "ΤΡΩΜΑ" rfl
  have hidden : ((single "street" (.known .contains) (.text "ΟΔΟΣ") .null).evaluate record).result =
      .ok false := rfl
  rw [hidden] at found
  cases found

end Condition

end TagRules
