import DocTemplate.Document
import DocTemplate.Template.Strategy
/-!
Strategies registered under the tags of document types, with one for all other tags.
-/
namespace DocTemplate

structure Registry where
  strategies : Entries Strategy none
  fallback : Strategy

namespace Registry

def empty (fallback : Strategy) : Registry := ⟨.nil, fallback⟩

/-- Registers a strategy under a tag, and tells which one it replaced. -/
def register (r : Registry) (tag : String) (strategy : Strategy) : Option Strategy × Registry :=
  (r.strategies.get? tag, { r with strategies := r.strategies.insert tag strategy })

/-- One strategy for both types of the LaTeX family and for all other tags. -/
def standard (d : Delimiters) : Registry :=
  let latex := Strategy.latex d
  let (_, r) := (empty latex).register DocumentType.latex.tag latex
  let (_, r) := r.register DocumentType.beamer.tag latex
  r

def has (r : Registry) (tag : String) : Bool := r.strategies.contains tag

def tags (r : Registry) : List String := r.strategies.keys

def strategyFor (r : Registry) (tag : String) : Strategy :=
  (r.strategies.get? tag).getD r.fallback

def render (r : Registry) (tag template : String) (c : Collection) : Except RenderError String :=
  (r.strategyFor tag).render template c

/-- Renders with the strategy for the type that is detected in the template. -/
def renderDetected (r : Registry) (template : String) (c : Collection) :
    Except RenderError String :=
  r.render (DocumentType.detect template).tag template c

end Registry
end DocTemplate
