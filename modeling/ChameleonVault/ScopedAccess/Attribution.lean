import ChameleonVault.PiiRegistry.Validation
import ChameleonVault.ScopedAccess.Soundness

/-! The context of a request, from the authentication hook to the handler of its route. -/

namespace ChameleonVault.ScopedAccess

open Concurrency Interleaving
open KeyRegistry (Date truthy truthy_eq_some_iff)
open PiiRegistry (tenantOf)

variable {hash : String → String}

section Hooks

structure RequestContext where
  correlationId : String
  userId : Option String := none
  tenantId : Option String := none
  operation : Option String := none
  startTime : Date
  operationId : Option String := none
  deletionRequestId : Option String := none
  analystEmail : Option String := none
  credentialRole : Option Role := none

structure Request where
  url : String
  /-- By lower-case name; a header that is sent twice is one string here. -/
  headers : String → Option String
  requestContext : Option RequestContext := none

structure Answer where
  statusCode : ℕ
  error : String
  deriving DecidableEq

/-- What `randomUUID` and `Date.now` give where a context may have to be made. -/
structure Fresh where
  randomUUID : String
  now : Date

def getRequestContext (fresh : Fresh) (request : Request) : RequestContext × Request :=
  match request.requestContext with
  | some context => (context, request)
  | none =>
    let context : RequestContext := { correlationId := fresh.randomUUID, startTime := fresh.now }
    (context, { request with requestContext := some context })

def Request.path (request : Request) : String := String.ofList (request.url.toList.takeWhile (· != '?'))

/-- `replace` with a string takes the first occurrence only. -/
def removeFirst (pattern : List Char) : List Char → List Char
  | [] => []
  | c :: text =>
    if pattern.isPrefixOf (c :: text) then (c :: text).drop pattern.length else c :: removeFirst pattern text

def bearer : String := "Bearer "

def providedKey (headers : String → Option String) : Option String :=
  (headers "x-api-key").orElse fun _ =>
    (headers "authorization").map fun value => String.ofList (removeFirst bearer.toList value.toList)

def authRequest (sharedApiKey : String) (request : Request) : AuthRequest where
  path := request.path
  providedKey := providedKey request.headers
  sharedApiKey := sharedApiKey
  requestTenantId := tenantOf (request.headers "x-tenant-id")

def setContext (fresh : Fresh) (request : Request) (f : RequestContext → RequestContext) : Request :=
  let (context, request) := getRequestContext fresh request
  { request with requestContext := some (f context) }

def authorize (fresh : Fresh) (request : Request) (result : AuthResult) : Except Answer Request :=
  if !result.authorized then .error ⟨401, "Unauthorized"⟩
  else
    let request := match truthy result.analystEmail with
      | some analystEmail => setContext fresh request fun context => { context with analystEmail := some analystEmail }
      | none => request
    .ok (match result.role with
      | some role => setContext fresh request fun context => { context with credentialRole := some role }
      | none => request)

variable (hash) in
def authHook (sharedApiKey : String) (fresh : Fresh) (request : Request) : Service (Except Answer Request) :=
  if isExemptFromAuth request.path then return .ok request
  else do
    let result ← resolveAuth hash (authRequest sharedApiKey request)
    return authorize fresh request result

def requestLogging (fresh : Fresh) (request : Request) : Request :=
  { request with requestContext := some {
      correlationId := (truthy (request.headers "x-correlation-id")).getD fresh.randomUUID, startTime := fresh.now } }

variable (hash) in
/-- The hooks of the server itself, in their order: `onRequest`, then `preHandler`. -/
def rootHooks (sharedApiKey : String) (atRequest atHandler : Fresh) (request : Request) :
    Service (Except Answer Request) := do
  let admitted ← authHook hash sharedApiKey atRequest request
  return admitted.map (requestLogging atHandler)

def requireWriteAuth (writeToken : Option String) (fresh : Fresh) (request : Request) : Except Answer Unit :=
  if (truthy (getRequestContext fresh request).1.analystEmail).isSome then .ok ()
  else match truthy writeToken with
    | none => .error ⟨503, "Registry write API is not enabled"⟩
    | some writeToken =>
      let header := (request.headers "authorization").getD ""
      let provided := if bearer.toList.isPrefixOf header.toList then header.toList.drop bearer.length else []
      if provided ≠ writeToken.toList then .error ⟨401, "Unauthorized"⟩ else .ok ()

end Hooks

section Contexts

variable {request admitted : Request} {sharedApiKey email : String} {result : AuthResult} {s s' : State}
  {fresh atRequest atHandler : Fresh}

lemma requestContext_requestLogging : ∃ context, (requestLogging fresh request).requestContext = some context ∧
    context.analystEmail = none ∧ context.credentialRole = none :=
  ⟨_, rfl, rfl, rfl⟩

lemma headers_setContext {f : RequestContext → RequestContext} :
    (setContext fresh request f).headers = request.headers := by
  rw [setContext, getRequestContext]
  cases request.requestContext <;> rfl

lemma getRequestContext_of_some {context : RequestContext} (h : request.requestContext = some context) :
    getRequestContext fresh request = (context, request) := by
  rw [getRequestContext, h]

/-- When the hook is done the context still names the holder of the credential. -/
lemma authorize_eq_ok (hauthorized : result.authorized = true) (hemail : result.analystEmail = some email)
    (hne : email ≠ "") : ∃ admitted, authorize fresh request result = .ok admitted ∧
      (getRequestContext fresh admitted).1.analystEmail = some email := by
  have htruthy : truthy result.analystEmail = some email := truthy_eq_some_iff.mpr ⟨hemail, hne⟩
  simp only [authorize, hauthorized, Bool.not_true, Bool.false_eq_true, if_false, htruthy]
  refine ⟨_, rfl, ?_⟩
  cases result.role with
  | none => rfl
  | some role => rfl

lemma ends_authHook_iff {admitted : Except Answer Request} (hpath : isExemptFromAuth request.path = false) :
    Ends Op.exec (authHook hash sharedApiKey fresh request) s admitted s' ↔ ∃ result,
      Ends Op.exec (resolveAuth hash (authRequest sharedApiKey request)) s result s' ∧
      admitted = authorize fresh request result := by
  simp only [authHook, hpath, Bool.false_eq_true, if_false, ends_bind_iff, ends_pure_iff]
  constructor
  · rintro ⟨result, t, h, rfl, rfl⟩
    exact ⟨result, h, rfl⟩
  · rintro ⟨result, h, rfl⟩
    exact ⟨result, s', h, rfl, rfl⟩

lemma ends_rootHooks_iff {answer : Except Answer Request} :
    Ends Op.exec (rootHooks hash sharedApiKey atRequest atHandler request) s answer s' ↔ ∃ admitted,
      Ends Op.exec (authHook hash sharedApiKey atRequest request) s admitted s' ∧
      answer = admitted.map (requestLogging atHandler) := by
  simp only [rootHooks, ends_bind_iff, ends_pure_iff]
  constructor
  · rintro ⟨admitted, t, h, rfl, rfl⟩
    exact ⟨admitted, h, rfl⟩
  · rintro ⟨admitted, h, rfl⟩
    exact ⟨admitted, s', h, rfl, rfl⟩

lemma forgotten (h : Ends Op.exec (rootHooks hash sharedApiKey atRequest atHandler request) s (.ok admitted) s') :
    (getRequestContext fresh admitted).1.analystEmail = none ∧
      (getRequestContext fresh admitted).1.credentialRole = none := by
  rw [ends_rootHooks_iff] at h
  obtain ⟨result, -, he⟩ := h
  cases result with
  | error answer => cases he
  | ok request =>
    obtain rfl := Except.ok.inj he
    obtain ⟨context, hcontext, hnone⟩ := @requestContext_requestLogging request atHandler
    rw [getRequestContext_of_some hcontext]
    exact hnone

lemma authorize_isOk (hauthorized : result.authorized = true) :
    ∃ admitted, authorize fresh request result = .ok admitted := by
  simp only [authorize, hauthorized, Bool.not_true, Bool.false_eq_true, if_false]
  exact ⟨_, rfl⟩

lemma rootHooks_admits (hpath : isExemptFromAuth request.path = false)
    (hresolved : Ends Op.exec (resolveAuth hash (authRequest sharedApiKey request)) s result s')
    (hauthorized : result.authorized = true) :
    ∃ admitted, Ends Op.exec (rootHooks hash sharedApiKey atRequest atHandler request) s (.ok admitted) s' := by
  obtain ⟨admitted, hadmitted⟩ := @authorize_isOk request result atRequest hauthorized
  refine ⟨requestLogging atHandler admitted, ?_⟩
  rw [ends_rootHooks_iff]
  refine ⟨.ok admitted, ?_, rfl⟩
  rw [ends_authHook_iff hpath]
  exact ⟨result, hresolved, hadmitted.symm⟩

lemma headers_authorize (h : authorize fresh request result = .ok admitted) : admitted.headers = request.headers := by
  rw [authorize] at h
  split at h
  · cases h
  · obtain rfl := Except.ok.inj h
    cases truthy result.analystEmail <;> cases result.role <;> simp only [headers_setContext]

lemma headers_rootHooks (h : Ends Op.exec (rootHooks hash sharedApiKey atRequest atHandler request) s (.ok admitted) s') :
    admitted.headers = request.headers := by
  rw [ends_rootHooks_iff] at h
  obtain ⟨hooked, hhook, he⟩ := h
  cases hooked with
  | error answer => cases he
  | ok hooked =>
    obtain rfl := Except.ok.inj he
    by_cases hpath : isExemptFromAuth request.path = true
    · rw [authHook, if_pos hpath] at hhook
      obtain ⟨he, -⟩ := ends_pure_iff.mp hhook
      obtain rfl := Except.ok.inj he
      rfl
    · rw [ends_authHook_iff (Bool.not_eq_true _ ▸ hpath)] at hhook
      obtain ⟨result, -, he⟩ := hhook
      exact (show (requestLogging atHandler hooked).headers = hooked.headers from rfl).trans (headers_authorize he.symm)

/-- A scoped credential alone does not open a route that asks for write access. -/
lemma requireWriteAuth_isError {writeToken : Option String} (hnone : request.headers "authorization" = none)
    (h : Ends Op.exec (rootHooks hash sharedApiKey atRequest atHandler request) s (.ok admitted) s') :
    ∃ answer, requireWriteAuth writeToken fresh admitted = .error answer := by
  have hactor : (truthy (getRequestContext fresh admitted).1.analystEmail).isSome = false := by
    rw [(forgotten h).1]
    rfl
  rw [requireWriteAuth, hactor, headers_rootHooks h, hnone]
  cases htoken : truthy writeToken with
  | none => exact ⟨_, rfl⟩
  | some token =>
    have hne : [] ≠ token.toList := by
      intro he
      exact (truthy_eq_some_iff.mp htoken).2 (String.toList_eq_nil_iff.mp he.symm)
    exact ⟨_, if_pos hne⟩

end Contexts

section Results

variable {request : Request} {sharedApiKey email : String} {result : AuthResult} {s s' : State}

/-- Whoever the credential was resolved to is the actor in every context that the route can read. -/
def NamesActor (hash : String → String) (sharedApiKey : String) (s : State) (request : Request) : Prop :=
  ∀ atRequest atHandler result s' email, isExemptFromAuth request.path = false →
    Ends Op.exec (resolveAuth hash (authRequest sharedApiKey request)) s result s' →
    result.authorized = true → result.analystEmail = some email →
    ∃ admitted, Ends Op.exec (rootHooks hash sharedApiKey atRequest atHandler request) s (.ok admitted) s' ∧
      ∀ fresh, (getRequestContext fresh admitted).1.analystEmail = some email

theorem actor_forgotten (hpath : isExemptFromAuth request.path = false)
    (hresolved : Ends Op.exec (resolveAuth hash (authRequest sharedApiKey request)) s result s')
    (hauthorized : result.authorized = true) (hemail : result.analystEmail = some email) :
    ¬ NamesActor hash sharedApiKey s request ∧ ∀ atRequest atHandler fresh,
      (∃ admitted, Ends Op.exec (rootHooks hash sharedApiKey atRequest atHandler request) s (.ok admitted) s') ∧
      ∀ admitted s'', Ends Op.exec (rootHooks hash sharedApiKey atRequest atHandler request) s (.ok admitted) s'' →
        (getRequestContext fresh admitted).1.analystEmail = none := by
  refine ⟨fun hnames => ?_, fun atRequest atHandler fresh => ?_⟩
  · let fresh : Fresh := ⟨"", 0⟩
    obtain ⟨admitted, hends, hactor⟩ := hnames fresh fresh result s' email hpath hresolved hauthorized hemail
    have hnone : (getRequestContext fresh admitted).1.analystEmail = none := (forgotten hends).1
    rw [hactor] at hnone
    cases hnone
  · exact ⟨rootHooks_admits hpath hresolved hauthorized, fun admitted s'' hends => (forgotten hends).1⟩

section Runs

/-- What the tenant's backend sends with its service credential. -/
def deletionRequest : Request where
  url := "/deletion-requests?dryRun=true"
  headers name := [("x-api-key", "service-key"), ("x-tenant-id", "acme")].lookup name

def billing : AuthResult where
  authorized := true
  analystEmail := some "billing"
  role := some .analyst
  tenantId := some "acme"
  credentialKind := some .service

lemma service_resolved : ∃ c : (accessRecords sha256).Config, Reachable (freshSecrets sha256) (noRecords sha256 0) c ∧
    Ends Op.exec (resolveAuth sha256 (authRequest "shared-key" deletionRequest)) c.state billing c.state := by
  have h : ∃ c : (accessRecords sha256).Config, Reachable (freshSecrets sha256) (noRecords sha256 0) c ∧
      c.state.docs.lookup (sha256 "service-key") = some serviceRecord :=
    exists_reachable serviceMinted _ (by decide +kernel)
  obtain ⟨c, hc, hl⟩ := h
  have hpath : isCredentialPath (authRequest "shared-key" deletionRequest).path = true := by decide +kernel
  have hne : "service-key" ≠ (authRequest "shared-key" deletionRequest).sharedApiKey :=
    (by decide : "service-key" ≠ "shared-key")
  refine ⟨c, hc, ?_⟩
  rw [resolveAuth_eq (show (authRequest "shared-key" deletionRequest).providedKey = some "service-key" from rfl) hne
    (by decide), if_pos hpath]
  refine ends_bind_iff.mpr ⟨some serviceRecord.identity, c.state, ?_, ends_pure_iff.mpr ⟨?_, rfl⟩⟩
  · exact ends_resolveCredential_iff.mpr ⟨rfl, .inr ⟨_, serviceRecord, ⟨hl, rfl⟩, rfl⟩⟩
  · decide +kernel

theorem actor_forgotten_service : ∃ c : (accessRecords sha256).Config,
    Reachable (freshSecrets sha256) (noRecords sha256 0) c ∧
    ∃ admitted, Ends Op.exec (rootHooks sha256 "shared-key" ⟨"first", 5⟩ ⟨"second", 6⟩ deletionRequest) c.state
      (.ok admitted) c.state ∧ (getRequestContext ⟨"third", 7⟩ admitted).1.analystEmail = none := by
  obtain ⟨c, hc, hresolved⟩ := service_resolved
  obtain ⟨-, hall⟩ := actor_forgotten (by decide +kernel) hresolved rfl rfl
  obtain ⟨⟨admitted, hends⟩, hnone⟩ := hall ⟨"first", 5⟩ ⟨"second", 6⟩ ⟨"third", 7⟩
  exact ⟨c, hc, admitted, hends, hnone admitted c.state hends⟩

theorem service_actor_lost : ¬ ∀ (now : Date) (c : (accessRecords sha256).Config) (sharedApiKey : String)
    (request : Request), Reachable (freshSecrets sha256) (noRecords sha256 now) c →
      NamesActor sha256 sharedApiKey c.state request := by
  intro h
  obtain ⟨c, hc, hresolved⟩ := service_resolved
  have hpath : isExemptFromAuth deletionRequest.path = false := by decide +kernel
  obtain ⟨admitted, hends, hactor⟩ := h 0 c "shared-key" deletionRequest hc ⟨"first", 5⟩ ⟨"second", 6⟩ billing c.state
    "billing" hpath hresolved rfl rfl
  have hnone : (getRequestContext ⟨"third", 7⟩ admitted).1.analystEmail = none := (forgotten hends).1
  rw [hactor] at hnone
  cases hnone

end Runs

end Results

end ChameleonVault.ScopedAccess
