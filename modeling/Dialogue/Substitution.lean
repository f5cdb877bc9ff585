import Dialogue.Pattern.Library
import Dialogue.Pattern.Replace
import Dialogue.Text.Lowercase
import Dialogue.Text.Words

/-!
# Substitutions

A table of words and phrases with their replacements, such as `my` by `your`. A phrase is replaced
where it stands between blanks or the ends of the text, whatever its case. The phrases are tried
in the order of their declaration, and each text is gone through once.
-/

namespace Dialogue

open Text (contract lowercase)

/-- The entries of a table in declaration order. The phrases are contracted and not empty. -/
structure Substitution where
  entries : List (List Char × List Char) := []

namespace Substitution

/-- The table of some declarations; those with a blank phrase are left out. -/
def ofList (declared : List (List Char × List Char)) : Substitution where
  entries := (declared.map fun (phrase, value) ↦ (contract phrase, value)).filter (! ·.1.isEmpty)

/-- Has the table no entries? -/
def isEmpty (table : Substitution) : Bool := table.entries.isEmpty

/-- The replacement of a phrase: that of the first entry with the same lower case. -/
def get? (table : Substitution) (phrase : List Char) : Option (List Char) :=
  (table.entries.find? fun entry ↦ lowercase entry.1 == lowercase phrase).map (·.2)

/-- The pattern that captures a phrase of the table. -/
def pattern (table : Substitution) : Pattern :=
  [.startOrBlank, .oneOf (table.entries.map (·.1)), .blankOrEnd]

/-- The expressions of the table. An empty one has none. -/
def expressions (table : Substitution) : List Expression :=
  if table.isEmpty then [] else [table.pattern.expression]

/-- The text with every phrase of the table replaced. A captured phrase that the table does not
list in this lower case stays. -/
def apply (table : Substitution) (s : List Char) : List Char :=
  if table.isEmpty then s
  else table.pattern.replaceAll (fun phrase ↦ (table.get? phrase).getD phrase) s

theorem apply_of_isEmpty {table : Substitution} (h : table.isEmpty = true) (s : List Char) :
    table.apply s = s := if_pos h

end Substitution

end Dialogue
