import PlugAgente.Dart.LinkedMap
import PlugAgente.Wire.CanonicalJson

/-!
# Definitions of actions

The classes under `domain/actions`: the seven kinds of configuration, the policy of the environment
and the definition, with the defaults of their constructors.  A set and a map are in insertion
order, and a map of any objects is a JSON map, as all that is stored goes through `jsonEncode`; `V`
are the doubles in it.  The policies that nothing here reads are of any type.
-/

namespace PlugAgente.Definition

open Dart (LinkedMap LinkedSet)
open Wire (Json Entries)

/-! ## Enumerations -/

inductive AgentActionState where
  | active
  | paused
  | disabled
  | needsValidation
  deriving DecidableEq, Repr

inductive AgentActionPathChangePolicy where
  | allowChanged
  | warnIfChanged
  | failIfChanged
  deriving DecidableEq, Repr

/-! ## Times -/

/-- The greatest number of microseconds of a `DateTime`, either way from 1970. -/
def maxMicros : Nat := 8640000000000000000

/-- `DateTime`: a moment, and whether its fields are read in UTC. -/
structure DateTime where
  micros : Int
  isUtc : Bool
  inRange : micros.natAbs ≤ maxMicros
  deriving DecidableEq

/-! ## Configurations -/

/-- A map of objects that `jsonEncode` takes. -/
structure JsonMap (V : Type) where
  entries : Entries V
  distinct : (Json.map entries).Distinct

structure AgentActionPathReference where
  originalPath : String
  canonicalPath : Option String := none
  existsAtValidation : Option Bool := none
  validatedAt : Option DateTime := none
  validationHash : Option String := none
  pathChangePolicy : Option AgentActionPathChangePolicy := none
  deriving DecidableEq

/-- `AgentActionConfig` with its seven subclasses. -/
inductive AgentActionConfig (V : Type) where
  | commandLine (command : String) (workingDirectory : Option AgentActionPathReference)
  | executable (executablePath : AgentActionPathReference) (arguments : List String)
      (workingDirectory : Option AgentActionPathReference)
  | script (scriptPath : AgentActionPathReference)
      (interpreterPath : Option AgentActionPathReference) (arguments : List String)
      (workingDirectory : Option AgentActionPathReference)
  | jar (jarPath : AgentActionPathReference)
      (javaExecutablePath : Option AgentActionPathReference) (arguments : List String)
      (workingDirectory : Option AgentActionPathReference)
  | email (smtpProfileId from_ : String) (to_ cc bcc : List String)
      (subjectTemplate bodyTemplate : String) (attachmentPaths : List AgentActionPathReference)
  | comObject (progId memberName : String) (arguments : JsonMap V)
  | developer (executorPath projectPath data7ConfigPath : AgentActionPathReference)
      (connectionId connectionLabel : String) (connectionSnapshotHash : Option String)

namespace AgentActionConfig

variable {V : Type}

def paths : AgentActionConfig V → List AgentActionPathReference
  | commandLine _ workingDirectory => workingDirectory.toList
  | executable executablePath _ workingDirectory => executablePath :: workingDirectory.toList
  | script scriptPath interpreterPath _ workingDirectory =>
    scriptPath :: (interpreterPath.toList ++ workingDirectory.toList)
  | jar jarPath javaExecutablePath _ workingDirectory =>
    jarPath :: (javaExecutablePath.toList ++ workingDirectory.toList)
  | email _ _ _ _ _ _ _ attachmentPaths => attachmentPaths
  | comObject .. => []
  | developer executorPath projectPath data7ConfigPath _ _ _ =>
    [executorPath, projectPath, data7ConfigPath]

end AgentActionConfig

/-! ## Policies -/

structure AgentActionEnvironmentPolicy where
  allowedProfiles : LinkedSet String := ⟨[], List.nodup_nil⟩
  allowedVariableNames : LinkedSet String := ⟨[], List.nodup_nil⟩
  variables_ : LinkedMap String String := LinkedMap.empty
  includeParentEnvironment : Option Bool := none
  deriving DecidableEq

/-- The policies: the environment, and the others, which nothing here reads. -/
structure AgentActionDefinitionPolicies (R : Type) where
  environment : AgentActionEnvironmentPolicy := {}
  others : R

/-! ## Definitions -/

structure AgentActionDefinition (V R : Type) where
  id : String
  name : String
  config : AgentActionConfig V
  description : Option String := none
  state : AgentActionState := .needsValidation
  policies : AgentActionDefinitionPolicies R
  definitionVersion : Int := 1
  definitionSnapshotHash : Option String := none
  lastPreflightSnapshotHash : Option String := none
  lastPreflightValidatedAt : Option DateTime := none
  createdAt : Option DateTime := none
  updatedAt : Option DateTime := none

end PlugAgente.Definition
