/-! # Domain exceptions

Business failures carry a kind, from which the transport takes its status, and a permanence flag,
from which retrying consumers take whether to park.
-/
namespace NestjsFastify

inductive DomainErrorKind where
  | malformed
  | validation
  | conflict
  | notFound
  | forbidden
  | unavailable
  deriving DecidableEq, Repr

structure DomainViolation where
  path : String
  code : String
  message : String
  messageKey : Option String := none
  deriving DecidableEq, Repr

structure DomainException where
  kind : DomainErrorKind
  code : String
  title : String
  messageKey : Option String
  violations : List DomainViolation
  permanent : Bool
  deriving DecidableEq, Repr

structure DomainExceptionOptions where
  kind : Option DomainErrorKind := none
  code : Option String := none
  title : Option String := none
  messageKey : Option String := none
  violations : List DomainViolation
  permanent : Option Bool := none

/-- The constructor of `DomainException` with its defaults. -/
def DomainException.new (options : DomainExceptionOptions) : DomainException where
  kind := options.kind.getD .validation
  code := options.code.getD "business_rule_violation"
  title := options.title.getD "Business rule violation"
  messageKey := options.messageKey
  violations := options.violations
  permanent := if options.kind = some .unavailable then false else options.permanent.getD true

/-- `unavailable` is always worth another try. -/
theorem DomainException.new_unavailable (options : DomainExceptionOptions)
    (kind : options.kind = some .unavailable) :
    (DomainException.new options).permanent = false := by
  simp [DomainException.new, kind]

/-- The kinds that `fieldProblem` accepts. -/
inductive FieldProblemKind where
  | malformed
  | validation
  | conflict
  | notFound
  | forbidden
  deriving DecidableEq, Repr

def FieldProblemKind.toKind : FieldProblemKind → DomainErrorKind
  | malformed => .malformed
  | validation => .validation
  | conflict => .conflict
  | notFound => .notFound
  | forbidden => .forbidden

def titleByKind : FieldProblemKind → String
  | .malformed => "common.bad_request"
  | .validation => "common.unprocessable_entity"
  | .conflict => "common.conflict"
  | .notFound => "common.not_found"
  | .forbidden => "common.forbidden"

structure FieldProblemInput where
  kind : FieldProblemKind
  code : String
  messageKey : String
  path : String
  message : String
  permanent : Option Bool := none
  violationCode : Option String := none

/-- A problem with one field: one violation at the field's path. -/
def fieldProblem (input : FieldProblemInput) : DomainException :=
  .new {
    kind := some input.kind.toKind
    code := some input.code
    title := some (titleByKind input.kind)
    messageKey := some input.messageKey
    permanent := input.permanent
    violations := [{
      path := input.path
      code := input.violationCode.getD input.code
      message := input.message
      messageKey := some input.messageKey }] }

@[simp] theorem fieldProblem_kind (input : FieldProblemInput) :
    (fieldProblem input).kind = input.kind.toKind := rfl

/-- A failure that leaves a handler: a domain exception, an error the application raises itself, or
one of a database, a queue or another dependency. -/
inductive Failure where
  | domain (exception : DomainException)
  | error (message : String)
  | infrastructure
  deriving DecidableEq, Repr

/-- `isDomainException(err) && err.kind === 'validation'` -/
def isPolicyViolation : Failure → Bool
  | .domain exception => exception.kind = .validation
  | _ => false

/-- Two steps succeed when the first does and the second does with its value. -/
theorem bind_eq_ok {Failure Value Result : Type} {action : Except Failure Value}
    {next : Value → Except Failure Result} {result : Result} :
    action >>= next = .ok result ↔ ∃ value, action = .ok value ∧ next value = .ok result := by
  cases action with
  | error failure => simp [bind, Except.bind]
  | ok value => simp [bind, Except.bind]

end NestjsFastify
