import Rulebook.Combining
import Rulebook.Config.Basic

/-!
# Settings of a service

Settings are what the engine section of a configuration means: names are looked up and a depth
limit of zero, under which no rule could be read, is refused.
-/

namespace Rulebook

/-- How a service reads, combines and evaluates rules. -/
structure Settings where
  mode : Mode := .firstMatch
  strategy : Strategy := .fixedAnd
  traced : Bool := false
  maxDepth : Nat := Tree.defaultMaxDepth
deriving DecidableEq

namespace Settings

/-- The settings that an engine section means. -/
def ofEngine (engine : Config.Engine) : Except Error Settings :=
  if engine.maxDepth = 0 then .error (.invalidInput "max_depth 必须大于 0")
  else do
    let mode ← Mode.ofName engine.mode
    let strategy ← Strategy.ofName engine.strategy
    return ⟨mode, strategy, engine.traced, engine.maxDepth⟩

/-- The parser of the settings. -/
def parser (s : Settings) : Parser := ⟨s.mode, s.maxDepth⟩

/-- The combiner of the settings. -/
def combiner (s : Settings) : Combiner := ⟨s.parser, s.strategy⟩

end Settings

end Rulebook
