import NestjsFastify.DomainException
import NestjsFastify.RecordTable
import NestjsFastify.SharedService

/-! # Terms and their acceptances

The commands that create, publish and accept a version of the terms, as processes over one
database.  Any number of them run interleaved, on replicas with clocks of their own, and every
statement may fail before or after its effect.
-/
namespace NestjsFastify.Terms

/-! ### The entity -/

inductive TermType where
  | termsOfService
  | privacyPolicy
  | cookiePolicy
  deriving DecidableEq, Repr

def isVersionCharacter (character : Char) : Bool :=
  character.isAlphanum || character = '.' || character = '_' || character = '-'

/-- The pattern `^[0-9A-Za-z][0-9A-Za-z._-]{0,49}$`. -/
def isVersion : List Char → Bool
  | [] => false
  | first :: rest => first.isAlphanum && rest.all isVersionCharacter && rest.length ≤ 49

structure Term where
  id : String
  type : TermType
  version : List Char
  content : String
  publishedAt : Option Int
  createdAt : Int
  updatedAt : Int
  deriving DecidableEq, Repr

def Term.isPublished (term : Term) : Bool := term.publishedAt.isSome

def invalidVersion : DomainException :=
  .new {
    kind := some .validation
    code := some "validation_failed"
    title := some "common.unprocessable_entity"
    violations := [{
      path := "version"
      code := "invalid_version"
      message := "version must be 1-50 characters of letters, digits, dot, hyphen or " ++
        "underscore, starting with a letter or digit" }] }

def assertVersion (version : List Char) : Except DomainException (List Char) :=
  if isVersion version then .ok version else .error invalidVersion

structure CreateTermCommand where
  type : TermType
  version : List Char
  content : String
  publish : Bool
  deriving DecidableEq, Repr

/-- `Term.create` with the id that is generated for it and the clock at its call. -/
def Term.create (command : CreateTermCommand) (id : String) (publishedAt : Option Int)
    (now : Int) : Except DomainException Term :=
  (assertVersion command.version).map fun version =>
    { id, type := command.type, version, content := command.content, publishedAt
      createdAt := now, updatedAt := now }

/-- Publishing twice keeps the first date. -/
def Term.publishedAtOrNow (term : Term) (now : Int) : Term :=
  if term.isPublished then term else { term with publishedAt := some now, updatedAt := now }

structure TermDto where
  id : String
  type : TermType
  version : List Char
  content : String
  publishedAt : Option Int
  createdAt : Int
  deriving DecidableEq, Repr

def toTermDto (term : Term) : TermDto :=
  ⟨term.id, term.type, term.version, term.content, term.publishedAt, term.createdAt⟩

/-! ### Errors -/

def termNotFound : DomainException :=
  fieldProblem {
    kind := .notFound, code := "term_not_found", path := "id"
    message := "Term not found", messageKey := "errors.terms.not_found" }

def termNotPublished : DomainException :=
  fieldProblem {
    kind := .conflict, code := "term_not_published", path := "id", permanent := some false
    message := "That term version is not published"
    messageKey := "errors.terms.not_published" }

def termVersionTaken : DomainException :=
  fieldProblem {
    kind := .conflict, code := "term_version_taken", path := "version", permanent := some false
    message := "This version already exists for this term type"
    messageKey := "errors.terms.version_taken" }

/-! ### The database -/

structure TermAcceptance where
  termId : String
  userId : String
  acceptedAt : Int
  ipAddress : Option String
  deriving DecidableEq, Repr

structure TermDatabase where
  users : List String
  terms : List Term
  acceptances : List TermAcceptance
  deriving DecidableEq, Repr

/-- The primary key of the terms, and the unique key on type and version. -/
def Term.conflicts (term other : Term) : Bool :=
  term.id = other.id || (term.type = other.type && term.version = other.version)

/-- The unique key of the acceptances. -/
def TermAcceptance.conflicts (acceptance other : TermAcceptance) : Bool :=
  acceptance.termId = other.termId && acceptance.userId = other.userId

/-- What `PrismaTermRepository` asks of the primary. -/
inductive TermRequest where
  | create (term : Term)
  | findById (id : String)
  | publish (id : String) (publishedAt : Int)
  | recordAcceptance (acceptance : TermAcceptance)
  deriving DecidableEq, Repr

/-- The answers; the handlers look at their clock only after they have found a term. -/
inductive TermResponse where
  | created (inserted : Bool)
  | term (found : Option Term) (now : Int)
  | published (updated : Bool)
  | recorded
  | failed
  deriving DecidableEq, Repr

/-- The course of a statement and the clock of the replica that sends it. -/
abbrev TermOracle : Type := SharedService.ClockedCourse

/-- The compare-and-set on the unpublished row. -/
def draftOf (id : String) (term : Term) : Bool := term.id = id && term.publishedAt.isNone

def executeTerm (database : TermDatabase) (now : Int) :
    TermRequest → TermDatabase × TermResponse
  | .create term =>
      match RecordTable.insertMany Term.conflicts [term] database.terms with
      | some terms => ({ database with terms }, .created true)
      | none => (database, .created false)
  | .findById id => (database, .term (database.terms.find? (·.id = id)) now)
  | .publish id publishedAt =>
      ({ database with
        terms := RecordTable.updateMany (draftOf id)
          (fun term => { term with publishedAt := some publishedAt, updatedAt := now })
          database.terms },
        .published (0 < RecordTable.updatedCount (draftOf id) database.terms))
  | .recordAcceptance acceptance =>
      -- the upsert updates nothing in a row that is there
      if database.acceptances.any acceptance.conflicts then (database, .recorded)
      else if database.terms.any (·.id = acceptance.termId) &&
          database.users.contains acceptance.userId then
        ({ database with acceptances := acceptance :: database.acceptances }, .recorded)
      else (database, .failed)

def performTerm (database : TermDatabase) (request : TermRequest) (oracle : TermOracle) :
    Option (TermDatabase × TermResponse) :=
  some (oracle.course.apply database .failed (executeTerm database oracle.now request))

/-! ### The handlers -/

structure AcceptTermCommand where
  userId : String
  termId : String
  ipAddress : Option String
  deriving DecidableEq, Repr

/-- How far a handler has come: `CreateTermHandler`, `PublishTermHandler`, `AcceptTermHandler`.  A
creation begins with the generated id and the two times that it reads. -/
inductive TermPhase where
  | create (command : CreateTermCommand) (id : String) (asked now : Int)
  | publish (id : String)
  | publishing (existing : Term) (now : Int)
  | refetching (existing : Term)
  | accept (command : AcceptTermCommand)
  | recording (command : AcceptTermCommand) (term : Term) (now : Int)
  | created (dto : TermDto)
  | published (dto : TermDto)
  | accepted (command : AcceptTermCommand)
  | failed (failure : Failure)
  deriving DecidableEq, Repr

namespace TermPhase

/-- The term that a creation makes. -/
def newTerm (command : CreateTermCommand) (id : String) (asked now : Int) :
    Except DomainException Term :=
  Term.create command id (if command.publish then some asked else none) now

def isStart : TermPhase → Bool
  | create _ _ _ _ | publish _ | accept _ => true
  | _ => false

def request : TermPhase → Option TermRequest
  | create command id asked now => (newTerm command id asked now).toOption.map .create
  | publish id => some (.findById id)
  | publishing existing now => some (.publish (existing.publishedAtOrNow now).id now)
  | refetching existing => some (.findById existing.id)
  | accept command => some (.findById command.termId)
  | recording command term now =>
      some (.recordAcceptance ⟨term.id, command.userId, now, command.ipAddress⟩)
  | _ => none

/-- `PublishTermHandler.execute` once the term has been looked up. -/
def publishIfDraft (existing : Term) (now : Int) : TermPhase :=
  if existing.isPublished then .published (toTermDto existing) else .publishing existing now

def resume : TermPhase → TermResponse → TermPhase
  | create command id asked now, .created inserted =>
      match newTerm command id asked now with
      | .ok term =>
          if inserted then .created (toTermDto term) else .failed (.domain termVersionTaken)
      | .error exception => .failed (.domain exception)
  | publish _, .term found now =>
      match found with
      | some existing => publishIfDraft existing now
      | none => .failed (.domain termNotFound)
  | publishing existing now, .published updated =>
      if updated then .published (toTermDto (existing.publishedAtOrNow now))
      else .refetching existing
  | refetching _, .term found _ =>
      match found with
      | some stored => .published (toTermDto stored)
      | none => .failed (.domain termNotFound)
  | accept command, .term found now =>
      match found with
      | some term =>
          if term.isPublished then .recording command term now
          else .failed (.domain termNotPublished)
      | none => .failed (.domain termNotFound)
  | recording command _ _, .recorded => .accepted command
  | _, _ => .failed .infrastructure

end TermPhase

/-! ### The service -/

/-- What else happens to the tables: users come, and take their acceptances along when they go. -/
inductive UserEvent where
  | register (userId : String)
  | delete (userId : String)
  deriving DecidableEq, Repr

def TermDatabase.happen (database : TermDatabase) : UserEvent → TermDatabase
  | .register userId => { database with users := userId :: database.users }
  | .delete userId =>
      { database with
        users := database.users.filter (· ≠ userId)
        acceptances := RecordTable.deleteMany (·.userId = userId) database.acceptances }

def termService : SharedService TermDatabase TermPhase TermRequest TermResponse TermOracle
    UserEvent where
  initial database := database.terms = [] ∧ database.acceptances = []
  admits _ phase := phase.isStart
  request := TermPhase.request
  resume := TermPhase.resume
  perform := performTerm
  external database event := some (database.happen event)

end NestjsFastify.Terms
