import Scenarist.Step.Template
import Scenarist.Table

set_option autoImplicit false

/-! # Step catalogs

The steps that are known, each as a template with an optional Russian variant. A catalog tells whether
a line is a known step and which templates come closest to it. -/

namespace Scenarist

/-- A step definition. -/
structure StepTemplate where
  text : Text
  russian : Option Text
  deriving DecidableEq, Repr

namespace StepTemplate

/-- The templates of a definition; an empty variant is none. -/
def variants (step : StepTemplate) : List Text :=
  step.text :: step.russian.toList.filter (!·.isEmpty)

end StepTemplate

/-- Step definitions and how alike a template must be to be suggested. -/
structure StepCatalog where
  steps : List StepTemplate
  threshold : Float

namespace StepCatalog

/-- The similarity that is asked of suggestions unless something else is set. -/
def defaultThreshold : Float := 0.25

def isAvailable (catalog : StepCatalog) : Bool := !catalog.steps.isEmpty

def templates (catalog : StepCatalog) : List Text := catalog.steps.flatMap StepTemplate.variants

/-- Whether the wording of a line is an instance of a template. -/
def isKnown (catalog : StepCatalog) (line : Text) : Bool :=
  let wording := stripKeyword line
  !wording.isEmpty && catalog.templates.any fun template => Template.isInstance template wording

/-- The templates most like a line, among those that reach the threshold. A line or template of
arguments alone is like nothing. -/
def suggest (catalog : StepCatalog) (line : Text) (count : Int) : List Text :=
  let wanted := Template.gist line
  if wanted.isEmpty then []
  else
    let scored := (distinct catalog.templates).filterMap fun template =>
      let gist := Template.gist template
      if gist.isEmpty then none else some (similarity wanted gist, template)
    bestOf count (scored.filter fun scored => meets catalog.threshold scored.1)

end StepCatalog

end Scenarist
