import TermLexer.Term.Set
import TermLexer.Value

/-!
# Term sets as structured values

A term set is stored as the list of its terms in match priority, and read from any list of texts.
-/

namespace TermLexer.TermSet

def toValue (set : TermSet) : Value := .list (set.toList.map .text)

def ofValue? : Value → Option TermSet
  | .list items => (items.mapM Value.text?).map ofList
  | _ => none

theorem ofValue?_toValue (set : TermSet) : ofValue? set.toValue = some (ofList set.toList) := by
  have h : (set.toList.map Value.text).mapM Value.text? = some set.toList := by
    induction set.toList with
    | nil => rfl
    | cons t ts ih => simp [ih]
  simp [toValue, ofValue?, h]

end TermLexer.TermSet
