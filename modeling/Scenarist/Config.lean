import Scenarist.Keyword
import Scenarist.Path

set_option autoImplicit false

/-! # Settings

The settings that index, checks and repair share, with the values that hold unless a project sets
others. -/

namespace Scenarist

/-- The settings of a project. -/
structure Config where
  /-- The directory that is scanned for scenarios, as the project writes it. -/
  scanDirectory : Text := "tests/RegressionTests/yaml".toList
  /-- The patterns that the names of scenario files fit. -/
  filePatterns : List Text := ["scen.yaml".toList, "scen.yml".toList]
  /-- The language of documents without a tag of their own. -/
  language : Language := .english
  /-- Parameters that are never declared. -/
  exclusions : List Text := []
  /-- From here on a name that is like a scenario's makes a line a call. -/
  strongMatch : Float := 0.85
  /-- From here on a scenario is proposed for another name. -/
  suggestionThreshold : Float := 0.3
  /-- From here on a step is proposed for another wording. -/
  stepThreshold : Float := 0.25
  /-- The most proposals that are made at once; at least one. -/
  maxSuggestions : Nat := 3
  /-- The most documents that count as related to one. -/
  maxRelated : Int := 120
  /-- A scan lets others go on after so many files. -/
  scanYield : Int := 20
  /-- A check of related documents lets others go on after so many. -/
  relatedYield : Int := 10
  /-- The seconds that a refresh waits for further requests. -/
  debounce : Float := 0.5
  /-- The file with the step catalog. -/
  stepsFile : Option Text := none
  /-- Whether the documents that call a changed one are checked along with it. -/
  checkRelated : Bool := true

namespace Config

/-- The file that settings are read from if no other is named. -/
def fileName : Text := "scenario-engine.yaml".toList

def scanRoot (config : Config) (project : Path) : Path :=
  project.inside (Path.ofText config.scanDirectory)

end Config

end Scenarist
