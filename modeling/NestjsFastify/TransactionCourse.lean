import NestjsFastify.DomainException

/-! # The transaction that a function runs in

The database service keeps the client of the transaction that is open in one asynchronous context,
and that of a transaction on the replica in another one.  A function is run on the client that is
there, in a new transaction, or on a pool directly; a new transaction is bound to the organization
of the request.
-/
namespace NestjsFastify.Prisma

/-- The write client and the read client; without a replica both are the primary. -/
inductive Server where
  | primary
  | replica
  deriving DecidableEq, Repr

/-- `transactionContext` and `readTransactionContext`, as code that is running sees them. -/
structure TransactionContexts (Client : Type) where
  transaction : Option Client := none
  readTransaction : Option Client := none
  deriving DecidableEq, Repr

/-- What becomes of a function that is handed to the service.  An organization is one that the
connection is bound to before. -/
inductive Course (Client : Type) where
  | joined (client : Client) (organizationId : Option String)
  | opened (server : Server) (organizationId : Option String)
  | direct (server : Server)
  | refused (failure : Failure)
  deriving DecidableEq, Repr

/-- What a request brings along: `resolveOrganizationId()`, and whether there is a replica. -/
structure Surroundings where
  organizationId : Option String
  hasReplica : Bool
  deriving DecidableEq, Repr

def Surroundings.hasTenantContext (surroundings : Surroundings) : Bool :=
  surroundings.organizationId.isSome

/-- The organization, unless it is empty. -/
def Surroundings.tenant (surroundings : Surroundings) : Option String :=
  surroundings.organizationId.filter (· ≠ "")

def Surroundings.dbRead (surroundings : Surroundings) : Server :=
  if surroundings.hasReplica then .replica else .primary

def nestedTransaction : Failure :=
  .error ("Nested prisma.transaction() is not supported — reuse the active client via " ++
    "prisma.currentTransaction")

def tenantContextRequired : Failure :=
  .domain <| .new {
    kind := some .forbidden
    code := some "organization_context_required"
    title := some "Organization context required"
    messageKey := some "errors.auth.organization_context_required"
    violations := [{
      path := "session.activeOrganizationId"
      code := "organization_context_required"
      message := "Tenant-scoped database access requires an active organization"
      messageKey := some "errors.auth.organization_context_required" }] }

section
variable {Client : Type} (surroundings : Surroundings) (contexts : TransactionContexts Client)

/-- The client that statements are to join. -/
def TransactionContexts.active (readOnly : Bool) : Option Client :=
  if readOnly then contexts.transaction.or contexts.readTransaction else contexts.transaction

/-- `PrismaService.transaction` -/
def transaction : Course Client :=
  if contexts.transaction.isSome then .refused nestedTransaction
  else .opened .primary surroundings.tenant

/-- `PrismaService.withTenantContext` -/
def withTenantContext (readOnly : Bool) : Course Client :=
  match surroundings.tenant with
  | none => .refused tenantContextRequired
  | some organizationId =>
      match contexts.active readOnly with
      | some client => .joined client (some organizationId)
      | none =>
          if !readOnly || !surroundings.hasReplica then transaction surroundings contexts
          else .opened .replica (some organizationId)

/-- `PrismaStoredFileRepository.run` -/
def run (readOnly : Bool) : Course Client :=
  match contexts.active readOnly with
  | some client => .joined client none
  | none =>
      if !surroundings.hasTenantContext then
        .direct (if readOnly then surroundings.dbRead else .primary)
      else withTenantContext surroundings contexts readOnly

/-- A write joins the transaction that is open, runs on the primary outside of transactions
without a tenant context, and in a transaction of its own otherwise. -/
theorem run_write :
    (∃ client, contexts.transaction = some client ∧
      run surroundings contexts false = .joined client none) ∨
    contexts.transaction = none ∧
      (surroundings.organizationId = none ∧ run surroundings contexts false = .direct .primary ∨
        surroundings.organizationId = some "" ∧
          run surroundings contexts false = .refused tenantContextRequired ∨
        ∃ organizationId, surroundings.organizationId = some organizationId ∧
          run surroundings contexts false = .opened .primary (some organizationId)) := by
  cases opened : contexts.transaction with
  | some client => exact .inl ⟨client, rfl, by simp [run, TransactionContexts.active, opened]⟩
  | none =>
    refine .inr ⟨rfl, ?_⟩
    cases carried : surroundings.organizationId with
    | none =>
      exact .inl ⟨rfl, by
        simp [run, TransactionContexts.active, opened, Surroundings.hasTenantContext, carried]⟩
    | some organizationId =>
      by_cases empty : organizationId = ""
      · subst empty
        exact .inr (.inl ⟨rfl, by
          simp [run, withTenantContext, TransactionContexts.active, opened, carried,
            Surroundings.hasTenantContext, Surroundings.tenant, Option.filter]⟩)
      · exact .inr (.inr ⟨organizationId, rfl, by
          simp [run, withTenantContext, transaction, TransactionContexts.active, opened, carried,
            Surroundings.hasTenantContext, Surroundings.tenant, Option.filter, empty]⟩)

end

end NestjsFastify.Prisma
