import ChpProxy.Api.Request
import ChpProxy.Lib.Interaction
import ChpProxy.Registry.Machine
import ChpProxy.Store.Memory

/-! The handlers of the management API and the routes they are reached by. A handler is a program
that calls the registry; what it decides before its first call depends on the request alone. -/
namespace ChpProxy

inductive Method where
  | get
  | post
  | delete
  | head
  | other (name : String)
  deriving DecidableEq

/-- A request body: the octets that arrive, and whether the stream breaks off. -/
structure RequestBody where
  bytes : List UInt8
  broken : Bool

structure ApiRequest where
  method : Method
  path : String
  query : Option String
  headers : HeaderMap
  body : RequestBody

inductive ResponseBody where
  | empty
  | text (content : String)
  | route (data : RouteData)
  | routes (routes : RouteMap)

structure ApiResponse where
  status : ℕ
  body : ResponseBody

/-- The accesses of a handler to the registry. -/
inductive RegistryOp where
  | isIndeterminate
  | snapshot
  | mutate (request : Request)

def RegistryOp.Reply : RegistryOp → Type
  | .isIndeterminate => Bool
  | .snapshot => RouteMap
  | .mutate _ => MutationResult

abbrev Handler := Interaction.Program RegistryOp RegistryOp.Reply

namespace Registry

variable {σ ι : Type}

/-- The registry as the handlers see it. A mutation is answered at once when the registry is
sealed, and otherwise when its task has returned to the caller. -/
def component (S : Store σ ι) :
    Interaction.Component (Registry σ) (Action ι) RegistryOp RegistryOp.Reply ℕ where
  step := step S
  begin s
    | .isIndeterminate => (s, .inr s.mutations.isIndeterminate)
    | .snapshot => (s, .inr s.routes.byKey)
    | .mutate request => match s.mutations.begin with
      | .ok _ => (s.begin request, .inl s.tasks.length)
      | .error e => (s, .inr (.error e))
  poll s
    | .mutate _, i => match s.tasks[i]? with
      | some ⟨_, _, .returned result⟩ => some result
      | _ => none
    | _, _ => none

end Registry

namespace Api

def isIndeterminate : Handler Bool := .call .isIndeterminate .done

def snapshot : Handler RouteMap := .call .snapshot .done

def mutate (request : Request) : Handler MutationResult := .call (.mutate request) .done

def registryGet (key : RouteKey) : Handler (Option RouteData) := do
  if ← isIndeterminate then return none
  else return (← snapshot)[key]?

def registryAll : Handler RouteMap := do
  if ← isIndeterminate then return ∅
  else snapshot

def empty (status : ℕ) : ApiResponse := ⟨status, .empty⟩

def text (status : ℕ) (content : String) : ApiResponse := ⟨status, .text content⟩

def RoutePathError.intoResponse : RoutePathError → ApiResponse
  | .badRequest => text 400 "Bad Request"
  | .notFound => text 404 "Not Found"

def registryUnavailable : Handler Bool := isIndeterminate

def mutationFailure (error : StoreError) : Handler ApiResponse := do
  if error.isIndeterminate then return empty 503
  else if ← registryUnavailable then return empty 503
  else return text 500 "Internal Server Error"

section Handlers

variable (libraries : Libraries) (state : ApiState) (request : ApiRequest)

def getAllRoutes : Handler ApiResponse := do
  if !authorized state request.headers then return empty 403
  else if ← registryUnavailable then return empty 503
  else match inactiveSince libraries request.query with
    | .error message => return text 400 message
    | .ok none => return ⟨200, .routes (← registryAll)⟩
    | .ok (some timestamp) =>
      return ⟨200, .routes ((← registryAll).filter fun _ route => route.lastActivity < timestamp)⟩

def getOneRoute : Handler ApiResponse := do
  if !authorized state request.headers then return empty 403
  else if ← registryUnavailable then return empty 503
  else match routeKeyFromUri libraries request.path 2 with
    | .error error => return error.intoResponse
    | .ok key => match ← registryGet key with
      | some route => return ⟨200, .route route⟩
      | none => return empty 404

def maxJsonBodyBytes : ℕ := 1024 * 1024

def toBytes (body : RequestBody) (limit : ℕ) : Option (List UInt8) :=
  if body.broken || limit < body.bytes.length then none else some body.bytes

def objectMembers : Value → Map
  | .object members => .ofList members
  | _ => ∅

def stringValue : Value → Option String
  | .string s => some s
  | _ => none

def postRoute (key : RouteKey) : Handler ApiResponse :=
  match toBytes request.body maxJsonBodyBytes with
  | none => return empty 413
  | some body => match libraries.fromSlice body with
    | .error error =>
      let complaint := javascriptJsonError libraries body error
      return text 400 s!"Body not valid JSON: {complaint}"
    | .ok value => do
      if !authorized state request.headers then return empty 403
      else if ← registryUnavailable then return empty 503
      else
        let object := objectMembers value
        match (object["target"]?).bind stringValue with
        | none => return text 400 "Must specify 'target' as string"
        | some target =>
          let extra := (object.erase "target").erase "last_activity"
          match ← mutate (.add key target extra) with
          | .error error => mutationFailure error
          | .ok _ => return empty 201

def postRootRoute : Handler ApiResponse := postRoute libraries state request (.parse "/")

def postOneRoute : Handler ApiResponse :=
  match routeKeyFromUri libraries request.path 2 with
  | .error error => return error.intoResponse
  | .ok key => postRoute libraries state request key

def deleteRoute (key : RouteKey) : Handler ApiResponse := do
  if !authorized state request.headers then return empty 403
  else if ← registryUnavailable then return empty 503
  else match ← mutate (.delete key) with
    | .ok (some _) => return empty 204
    | .ok none => return empty 404
    | .error error => mutationFailure error

def deleteRootRoute : Handler ApiResponse := deleteRoute state request (.parse "/")

def deleteOneRoute : Handler ApiResponse :=
  match routeKeyFromUri libraries request.path 1 with
  | .error error => return error.intoResponse
  | .ok key => deleteRoute state request key

def methodNotAllowed : Handler ApiResponse := return text 405 "Method not supported"

def notFound : Handler ApiResponse := return text 404 "Not Found"

/-- The two paths of the collection, and everything below it. -/
inductive Endpoint where
  | collection
  | route
  | unknown
  deriving DecidableEq

def endpoint (path : String) : Endpoint :=
  if path = "/api/routes" || path = "/api/routes/" then .collection
  else if "/api/routes/".toList.isPrefixOf path.toList then .route
  else .unknown

def router : Handler ApiResponse :=
  match endpoint request.path with
  | .collection => match request.method with
    | .get => getAllRoutes libraries state request
    | .post => postRootRoute libraries state request
    | .delete => deleteRootRoute state request
    | .head | .other _ => methodNotAllowed
  | .route => match request.method with
    | .get => getOneRoute libraries state request
    | .post => postOneRoute libraries state request
    | .delete => deleteOneRoute libraries state request
    | .head | .other _ => methodNotAllowed
  | .unknown => notFound

end Handlers

/-- The handler answers without a call to the registry. -/
def Answers (handler : Handler ApiResponse) : Prop := ∃ response, handler = .done response

section Unauthorized

variable {libraries : Libraries} {state : ApiState} {request : ApiRequest}

theorem answers_postRoute (h : authorized state request.headers = false) (key : RouteKey) :
    Answers (postRoute libraries state request key) := by
  unfold postRoute
  split
  · exact ⟨_, rfl⟩
  · split
    · exact ⟨_, rfl⟩
    · rw [h]
      exact ⟨_, rfl⟩

theorem answers_deleteRoute (h : authorized state request.headers = false) (key : RouteKey) :
    Answers (deleteRoute state request key) := by
  unfold deleteRoute
  rw [h]
  exact ⟨_, rfl⟩

/-- Every early exit comes before the first call. -/
theorem answers_router (h : authorized state request.headers = false) :
    Answers (router libraries state request) := by
  have hrefused : ∀ handler : Handler ApiResponse,
      Answers (if !authorized state request.headers then return empty 403 else handler) := by
    intro handler
    rw [h]
    exact ⟨_, rfl⟩
  unfold router
  split
  · split
    · exact hrefused _
    · exact answers_postRoute h _
    · exact answers_deleteRoute h _
    · exact ⟨_, rfl⟩
    · exact ⟨_, rfl⟩
  · split
    · exact hrefused _
    · unfold postOneRoute
      split
      · exact ⟨_, rfl⟩
      · exact answers_postRoute h _
    · unfold deleteOneRoute
      split
      · exact ⟨_, rfl⟩
      · exact answers_deleteRoute h _
    · exact ⟨_, rfl⟩
    · exact ⟨_, rfl⟩
  · exact ⟨_, rfl⟩

/-- A request that is not authorized gets the same response from every registry, over every store,
whatever its seal and whatever others do meanwhile, and handling it takes no step of the
registry. -/
theorem unauthorized_learns_nothing (h : authorized state request.headers = false) :
    ∃ response, ∀ {σ ι : Type} (S : Store σ ι) (registry : Registry σ)
      (as : List (Interaction.Act (Action ι))) t,
      Interaction.run (Registry.component S)
        (registry, .running (router libraries state request)) as = some t →
      t.2.result = some response ∧
        ∃ bs, as = bs.map .others ∧ Registry.run S registry bs = some t.1 := by
  have hanswers : Answers (router libraries state request) := answers_router h
  obtain ⟨response, hrouter⟩ := hanswers
  refine ⟨response, fun S registry as t ht => ?_⟩
  rw [hrouter] at ht
  obtain ⟨hdone, hothers⟩ := Interaction.run_of_done ht
  rw [hdone]
  exact ⟨rfl, hothers⟩

end Unauthorized

/-- A reader that takes paths as they are and every body for an empty object. -/
def plain : Libraries where
  urlPath url := some (String.ofList (url.toList.drop "http://route.invalid".length))
  parseForm _ := []
  parseRfc3339 _ := none
  parseDate _ := none
  parseRfc2822 _ := none
  parseSpaced _ := none
  fromSlice _ := .ok (.object [])
  firstValueEnd _ := none
  quote _ := none

/-- `Authorization: token wrong`, where the token is `secret`. -/
def guessing (method : Method) : ApiRequest :=
  ⟨method, "/api/routes/a", none,
    MultiMap.empty.insert "authorization" (asBytes "token wrong"), ⟨[], false⟩⟩

theorem unauthorized_learns_nothing_guessing :
    authorized (.new (some "secret")) (guessing .delete).headers = false ∧
    ∃ response, ∀ {σ ι : Type} (S : Store σ ι) (registry : Registry σ)
      (as : List (Interaction.Act (Action ι))) t,
      Interaction.run (Registry.component S)
        (registry, .running (router plain (.new (some "secret")) (guessing .delete))) as = some t →
      t.2.result = some response ∧
        ∃ bs, as = bs.map .others ∧ Registry.run S registry bs = some t.1 := by
  have hguess : authorized (.new (some "secret")) (guessing .delete).headers = false := by decide
  exact ⟨hguess, unauthorized_learns_nothing hguess⟩

example : authorized (.new (some "secret"))
    (MultiMap.empty.insert "authorization" (asBytes "token secret")) = true := by
  decide

end Api

end ChpProxy
