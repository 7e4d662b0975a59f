import Mathlib.Order.Defs.LinearOrder
import NestjsFastify.DomainException
import NestjsFastify.RecordTable
import NestjsFastify.SharedService

/-! # Feature flags

The commands that create, change and delete the flags of an organization, as processes over one
database, and the evaluation of the flags for a subject.
-/
namespace NestjsFastify.FeatureFlags

/-! ### The entity -/

def isKeyCharacter (character : Char) : Bool :=
  character.isLower || character.isDigit || character = '.' || character = '_' || character = '-'

/-- The pattern `^[a-z][a-z0-9._-]{1,99}$`. -/
def isKey : List Char → Bool
  | [] => false
  | first :: rest => first.isLower && rest.all isKeyCharacter && 1 ≤ rest.length &&
      rest.length ≤ 99

/-- A number of the language: an integer, or what `Number.isInteger` refuses. -/
inductive Number where
  | integer (value : Int)
  | other
  deriving DecidableEq, Repr

def Number.value? : Number → Option Int
  | integer value => some value
  | other => none

structure FeatureFlag where
  id : String
  organizationId : String
  key : List Char
  description : Option String
  enabled : Bool
  rolloutPercentage : Int
  createdAt : Int
  updatedAt : Int
  deriving DecidableEq, Repr

/-- `validation` of the entity. -/
def invalidFlag (path message messageKey : String) : DomainException :=
  fieldProblem { kind := .validation, code := "validation_failed", messageKey, path, message }

def assertKey (key : List Char) : Except DomainException (List Char) :=
  if isKey key then .ok key
  else .error (invalidFlag "key"
    ("key must be 2-100 characters of lowercase letters, digits, dot, hyphen or underscore, " ++
      "starting with a letter") "errors.feature_flags.invalid_key")

def invalidRollout : DomainException :=
  invalidFlag "rolloutPercentage" "rolloutPercentage must be an integer between 0 and 100"
    "errors.feature_flags.invalid_rollout"

def assertRollout : Number → Except DomainException Int
  | .integer percentage =>
      if percentage < 0 ∨ 100 < percentage then .error invalidRollout else .ok percentage
  | .other => .error invalidRollout

structure CreateFeatureFlagCommand where
  organizationId : String
  key : List Char
  description : Option String
  enabled : Option Bool
  rolloutPercentage : Option Number
  deriving DecidableEq, Repr

/-- What an update may name; a description may be taken away. -/
structure FeatureFlagChanges where
  description : Option (Option String)
  enabled : Option Bool
  rolloutPercentage : Option Number
  deriving DecidableEq, Repr

/-- `FeatureFlag.create` with the id that is generated for it and the clock at its call. -/
def FeatureFlag.create (command : CreateFeatureFlagCommand) (id : String) (now : Int) :
    Except DomainException FeatureFlag :=
  (assertKey command.key).bind fun key =>
    (assertRollout (command.rolloutPercentage.getD (.integer 100))).map fun rolloutPercentage =>
      { id, organizationId := command.organizationId, key, description := command.description
        enabled := command.enabled.getD false, rolloutPercentage, createdAt := now
        updatedAt := now }

/-- The percentage after the changes. -/
def FeatureFlag.rolloutAfter (flag : FeatureFlag) (changes : FeatureFlagChanges) :
    Except DomainException Int :=
  match changes.rolloutPercentage with
  | none => .ok flag.rolloutPercentage
  | some percentage => assertRollout percentage

def FeatureFlag.withChanges (flag : FeatureFlag) (changes : FeatureFlagChanges) (now : Int) :
    Except DomainException FeatureFlag :=
  (flag.rolloutAfter changes).map fun rolloutPercentage =>
    { flag with
      description := changes.description.getD flag.description
      enabled := changes.enabled.getD flag.enabled
      rolloutPercentage
      updatedAt := now }

/-- The bucket of a subject: `digest` gives the first four bytes of the SHA-256 as a number. -/
def bucketOf (digest : List Char → Nat) (key subjectId : List Char) : Nat :=
  digest (key ++ ':' :: subjectId) % 100

def FeatureFlag.isEnabledFor (digest : List Char → Nat) (flag : FeatureFlag)
    (subjectId : List Char) : Bool :=
  if flag.enabled = false then false
  else if 100 ≤ flag.rolloutPercentage then true
  else if flag.rolloutPercentage ≤ 0 then false
  else (bucketOf digest flag.key subjectId : Int) < flag.rolloutPercentage

structure FeatureFlagDto where
  id : String
  key : List Char
  description : Option String
  enabled : Bool
  rolloutPercentage : Int
  createdAt : Int
  updatedAt : Int
  deriving DecidableEq, Repr

def toFeatureFlagDto (flag : FeatureFlag) : FeatureFlagDto :=
  ⟨flag.id, flag.key, flag.description, flag.enabled, flag.rolloutPercentage, flag.createdAt,
    flag.updatedAt⟩

/-! ### Errors -/

def featureFlagNotFound : DomainException :=
  fieldProblem {
    kind := .notFound, code := "feature_flag_not_found", path := "id"
    message := "Feature flag not found", messageKey := "errors.feature_flags.not_found" }

def featureFlagKeyTaken : DomainException :=
  fieldProblem {
    kind := .conflict, code := "feature_flag_key_taken", path := "key", permanent := some false
    message := "A feature flag with this key already exists in the organization"
    messageKey := "errors.feature_flags.key_taken" }

/-! ### The database -/

structure FlagDatabase where
  organizations : List String
  flags : List FeatureFlag
  deriving DecidableEq, Repr

/-- The primary key of the flags, and the unique key on organization and key. -/
def FeatureFlag.conflicts (flag other : FeatureFlag) : Bool :=
  flag.id = other.id || (flag.organizationId = other.organizationId && flag.key = other.key)

def flagOf (organizationId id : String) (flag : FeatureFlag) : Bool :=
  flag.id = id && flag.organizationId = organizationId

/-- The data of an update; a field that is not named stays. -/
structure FlagData where
  description : Option (Option String)
  enabled : Option Bool
  rolloutPercentage : Option Int
  updatedAt : Int
  deriving DecidableEq, Repr

def FlagData.apply (data : FlagData) (flag : FeatureFlag) : FeatureFlag :=
  { flag with
    description := data.description.getD flag.description
    enabled := data.enabled.getD flag.enabled
    rolloutPercentage := data.rolloutPercentage.getD flag.rolloutPercentage
    updatedAt := data.updatedAt }

/-- What `PrismaFeatureFlagRepository` asks of the primary. -/
inductive FlagRequest where
  | create (flag : FeatureFlag)
  | findById (organizationId id : String)
  | update (organizationId id : String) (data : FlagData)
  | delete (organizationId id : String)
  deriving DecidableEq, Repr

/-- The answers; the handler of an update looks at its clock once it has found the flag. -/
inductive FlagResponse where
  | created (inserted : Bool)
  | flag (found : Option FeatureFlag) (now : Int)
  | updated (applied : Bool)
  | deleted (removed : Bool)
  | failed
  deriving DecidableEq, Repr

/-- The course of a statement and the clock of the replica that sends it. -/
abbrev FlagOracle : Type := SharedService.ClockedCourse

def executeFlag (database : FlagDatabase) (now : Int) :
    FlagRequest → FlagDatabase × FlagResponse
  | .create flag =>
      if database.organizations.contains flag.organizationId then
        match RecordTable.insertMany FeatureFlag.conflicts [flag] database.flags with
        | some flags => ({ database with flags }, .created true)
        | none => (database, .created false)
      else (database, .failed)
  | .findById organizationId id =>
      (database, .flag (database.flags.find? (flagOf organizationId id)) now)
  | .update organizationId id data =>
      ({ database with
        flags := RecordTable.updateMany (flagOf organizationId id) data.apply database.flags },
        .updated (0 < RecordTable.updatedCount (flagOf organizationId id) database.flags))
  | .delete organizationId id =>
      ({ database with
        flags := RecordTable.deleteMany (flagOf organizationId id) database.flags },
        .deleted (0 < RecordTable.updatedCount (flagOf organizationId id) database.flags))

def performFlag (database : FlagDatabase) (request : FlagRequest) (oracle : FlagOracle) :
    Option (FlagDatabase × FlagResponse) :=
  some (oracle.course.apply database .failed (executeFlag database oracle.now request))

/-! ### The handlers -/

structure UpdateFeatureFlagCommand where
  organizationId : String
  id : String
  changes : FeatureFlagChanges
  deriving DecidableEq, Repr

structure DeleteFeatureFlagCommand where
  organizationId : String
  id : String
  deriving DecidableEq, Repr

/-- How far a handler has come: `CreateFeatureFlagHandler`, `UpdateFeatureFlagHandler`,
`DeleteFeatureFlagHandler`.  A creation begins with the generated id and the time that it reads. -/
inductive FlagPhase where
  | create (command : CreateFeatureFlagCommand) (id : String) (now : Int)
  | update (command : UpdateFeatureFlagCommand)
  | applying (command : UpdateFeatureFlagCommand) (updated : FeatureFlag)
  | delete (command : DeleteFeatureFlagCommand)
  | created (dto : FeatureFlagDto)
  | updated (command : UpdateFeatureFlagCommand) (dto : FeatureFlagDto)
  | deleted (command : DeleteFeatureFlagCommand)
  | failed (failure : Failure)
  deriving DecidableEq, Repr

namespace FlagPhase

def isStart : FlagPhase → Bool
  | create _ _ _ | update _ | delete _ => true
  | _ => false

/-- The data of the update: the changes as they were asked for. -/
def dataOf (changes : FeatureFlagChanges) (flag : FeatureFlag) : FlagData where
  description := changes.description
  enabled := changes.enabled
  rolloutPercentage := changes.rolloutPercentage.bind Number.value?
  updatedAt := flag.updatedAt

def request : FlagPhase → Option FlagRequest
  | create command id now => (FeatureFlag.create command id now).toOption.map .create
  | update command => some (.findById command.organizationId command.id)
  | applying command flag =>
      some (.update command.organizationId command.id (dataOf command.changes flag))
  | delete command => some (.delete command.organizationId command.id)
  | _ => none

/-- `UpdateFeatureFlagHandler.execute` once the flag has been looked up. -/
def resumeFound (command : UpdateFeatureFlagCommand) (existing : FeatureFlag) (now : Int) :
    FlagPhase :=
  match existing.withChanges command.changes now with
  | .ok flag => .applying command flag
  | .error exception => .failed (.domain exception)

def resume : FlagPhase → FlagResponse → FlagPhase
  | create command id now, .created inserted =>
      match FeatureFlag.create command id now with
      | .ok flag =>
          if inserted then .created (toFeatureFlagDto flag)
          else .failed (.domain featureFlagKeyTaken)
      | .error exception => .failed (.domain exception)
  | update command, .flag found now =>
      match found with
      | some existing => resumeFound command existing now
      | none => .failed (.domain featureFlagNotFound)
  | applying command flag, .updated applied =>
      if applied then .updated command (toFeatureFlagDto flag)
      else .failed (.domain featureFlagNotFound)
  | delete command, .deleted removed =>
      if removed then .deleted command else .failed (.domain featureFlagNotFound)
  | _, _ => .failed .infrastructure

end FlagPhase

/-! ### The service -/

/-- What else happens to the tables: an organization takes its flags along when it goes. -/
inductive OrganizationEvent where
  | create (organizationId : String)
  | delete (organizationId : String)
  deriving DecidableEq, Repr

def FlagDatabase.happen (database : FlagDatabase) : OrganizationEvent → FlagDatabase
  | .create organizationId =>
      { database with organizations := organizationId :: database.organizations }
  | .delete organizationId =>
      { database with
        organizations := database.organizations.filter (· ≠ organizationId)
        flags := RecordTable.deleteMany (·.organizationId = organizationId) database.flags }

def flagService : SharedService FlagDatabase FlagPhase FlagRequest FlagResponse FlagOracle
    OrganizationEvent where
  initial database := database.flags = []
  admits _ phase := phase.isStart
  request := FlagPhase.request
  resume := FlagPhase.resume
  perform := performFlag
  external database event := some (database.happen event)

/-- `EvaluateFeatureFlagsHandler.execute`: the entries of the record. -/
def evaluateFeatureFlags (digest : List Char → Nat) (database : FlagDatabase)
    (organizationId : String) (subjectId : List Char) : List (List Char × Bool) :=
  (database.flags.filter (·.organizationId = organizationId)).map fun flag =>
    (flag.key, flag.isEnabledFor digest subjectId)

end NestjsFastify.FeatureFlags
