import DocTemplate.Template.Delimiters
import DocTemplate.Template.Scan
import DocTemplate.Variable.Collection
/-!
Strategies for rendering a template with variables, and the text that stands for a variable in a
rendered document.
-/
namespace DocTemplate

/-- Strings in a list stand for themselves; every other item is shown as a variable. -/
def Json.formatItem : Json → String
  | .string text => text
  | other => (Variable.ofJson other).display

/-- Strings stand for themselves, numbers have two places, items are joined by commas, objects are
written as JSON, and null leaves nothing. -/
def Variable.format : Variable → String
  | .string text => text
  | .number value => value.fixed 2
  | .boolean value => if value then "true" else "false"
  | .array items => Text.joined ", " (items.map Json.formatItem)
  | .object fields => (Json.object fields).compact
  | .null => ""

structure Strategy where
  render : (template : String) → Collection → Except RenderError String

namespace Delimiters

/-- One substitution for each variable: its placeholder by its text. -/
def table (d : Delimiters) (c : Collection) : SubstitutionTable :=
  .ofList <| c.toList.map fun (name, value) =>
    ⟨(d.placeholder name).toList, value.format.toList⟩

/-- The template with the placeholders of all variables replaced. Other placeholders stay. -/
def substitute (d : Delimiters) (template : String) (c : Collection) : Rendered :=
  (d.table c).substitute d.left.toList template.toList

end Delimiters

namespace Strategy

/-- Replaces placeholders by variables; a nested object is one variable. -/
def latex (d : Delimiters) : Strategy :=
  ⟨fun template c => .ok (String.ofList (d.substitute template c).text)⟩

end Strategy

/-- Renders a template with the standard delimiters. -/
def render (template : String) (c : Collection) : Except RenderError String :=
  (Strategy.latex .standard).render template c

end DocTemplate
