import InvoiceHub.Effects.Interference
import InvoiceHub.Effects.Run

/-!
# Tokens

`AuthService` signs a token for whoever knows the password of a user.  Nothing about it is stored:
the checks that run before the handlers of the services read everything off the token that a
request carries.
-/

namespace InvoiceHub.Auth

open Effects

/-! ## Data -/

/-- A row of the users; `password` is a hash. -/
structure User where
  id : String
  email : String
  password : String
  roleId : Option String

/-- A row of the roles. -/
structure Role where
  id : String
  name : String

/-- What the auth service stores. -/
structure Tables where
  users : List User
  roles : List Role

/-- What a role shows. -/
structure RoleDto where
  name : String
deriving DecidableEq

/-- What a user shows. -/
structure UserDto where
  id : String
  role : Option RoleDto
deriving DecidableEq

structure SigninArgs where
  email : String
  password : String
deriving DecidableEq

/-- What a token says. -/
structure JwtPayload where
  currentUser : Option UserDto
  iat : Option Int
  exp : Option Int
deriving DecidableEq

namespace Tables

variable (tables : Tables)

def findOne (email : String) : Option User := tables.users.find? (·.email = email)

/-- The relation `user.role` is lazy: it is loaded where it is awaited. -/
def role (id : String) : Option RoleDto := do
  let user ← tables.users.find? (·.id = id)
  let roleId ← user.roleId
  let role ← tables.roles.find? (·.id = roleId)
  return { name := role.name }

end Tables

/-- What is left to `bcrypt`, `jsonwebtoken` and `passport-jwt`, with the configured key. -/
structure Packages where
  compare : String → String → Bool
  /-- `jwt.sign`, which adds `iat` and `exp` to a payload with the current user. -/
  sign : UserDto → Int → Int → String
  /-- What a token says; `none` where its signature is not that of the key. -/
  decode : String → Option JwtPayload
  /-- The seconds that `expiresIn` stands for; `none` where `jwt.sign` does not take it. -/
  timespan : Option Int
  fromAuthHeaderAsBearerToken : String → Option String
  decode_sign : ∀ currentUser iat exp,
    decode (sign currentUser iat exp) = some ⟨some currentUser, some iat, some exp⟩

/-- Seconds, as tokens count them. -/
def seconds (now : Nat) : Int := (now / 1000 : Nat)

/-- `jwt.verify` takes a token until it expires. -/
def Packages.verify (packages : Packages) (now : Nat) (token : String) : Option JwtPayload :=
  (packages.decode token).filter fun payload => payload.exp.all (seconds now < ·)

/-! ## Calls -/

/-- What the handlers of a route ask for. -/
structure Route where
  /-- The roles of `Authorized`. -/
  roles : List String
  /-- A handler with a `CurrentUser`. -/
  currentUser : Bool

/-- A token that was signed: for what arguments and which call of `signin`, and when. -/
structure Signed where
  args : SigninArgs
  began : Nat
  currentUser : UserDto
  accessToken : String
  exp : Int
  signedAt : Nat

/-- A request that was answered; `admitted` is what its handler got as current user, and `none`
where the handler did not run. -/
structure Response where
  route : Route
  authorization : Option String
  began : Nat
  admitted : Option (Option UserDto)
  ended : Nat

/-- The calls, and what they need the clock for. -/
inductive Call where
  | findOne (email : String)
  | compare (data encrypted : String)
  | role (id : String)
  | sign (args : SigninArgs) (began : Nat) (currentUser : UserDto)
  | verify (token : String)
  | now
  | respond (route : Route) (authorization : Option String) (began : Nat)
      (admitted : Option (Option UserDto))

/-- Their answers. -/
abbrev Call.Answer : Call → Type
  | findOne _ => Option User
  | compare .. => Bool
  | role _ => Option RoleDto
  | sign .. => Option String
  | verify _ => Option JwtPayload
  | now => Nat
  | respond .. => Unit

/-- The calls that may be rejected: the others are not asynchronous. -/
def Call.fails : Call → Bool
  | findOne _ | compare .. | role _ => true
  | _ => false

/-- A function of the auth service or of the checks. -/
abbrev Async := Prog Call Call.Answer

/-! ## `AuthService` -/

def generateLoginResponse (args : SigninArgs) (began : Nat) (currentUser : UserDto) :
    Async String := do
  let accessToken ← Prog.await (Call.sign args began currentUser)
  match accessToken with
  | some accessToken => return accessToken
  | none => Prog.throw

def signin (args : SigninArgs) (began : Nat) : Async String := do
  let user ← Prog.await (Call.findOne args.email)
  match user with
  | none => Prog.throw
  | some user =>
    let same ← Prog.await (Call.compare args.password user.password)
    if same then
      let role ← Prog.await (Call.role user.id)
      generateLoginResponse args began { id := user.id, role }
    else Prog.throw

/-- Nothing is written down about a token that is signed out. -/
def signout (accesToken : Option String) : Async Bool := do
  let token := accesToken.bind fun text => (text.toList.splitOn ' ')[1]?.map String.ofList
  let decoded ← Prog.await (Call.verify (token.getD ""))
  match decoded with
  | none => Prog.throw
  | some decoded => return decoded.exp.any (· ≠ 0)

/-! ## The checks -/

section Checks

variable (packages : Packages) (authorization : Option String)

/-- The strategy verifies the token of the header. -/
def getTokenData (header : String) : Async (Option UserDto) :=
  match packages.fromAuthHeaderAsBearerToken header with
  | none => Prog.throw
  | some token => do
    let payload ← Prog.await (Call.verify token)
    match payload with
    | none => Prog.throw
    | some payload =>
      match payload.exp.filter (· ≠ 0) with
      | none => return payload.currentUser
      | some exp => do
        let now ← Prog.await Call.now
        if exp * 1000 ≤ now then Prog.throw else return payload.currentUser

def isBearer (header : String) : Bool := "Bearer ".toList.isPrefixOf header.toList

def generateExpressContext : Async (Option UserDto) :=
  match authorization.filter isBearer with
  | none => Prog.throw
  | some header => getTokenData packages header

def currentUserChecker : Async UserDto := do
  match ← generateExpressContext packages authorization with
  | none => Prog.throw
  | some currentUser => return currentUser

def authorizationChecker (roles : List String) : Async Bool := do
  match ← generateExpressContext packages authorization with
  | none => Prog.throw
  | some currentUser =>
    match currentUser.role with
    | none => Prog.throw
    | some role => if roles = [] ∨ role.name ∉ roles then Prog.throw else return true

/-- What is checked before a handler runs. -/
def runChecks (route : Route) : Async (Option UserDto) := do
  let _ ← authorizationChecker packages authorization route.roles
  if route.currentUser then
    let currentUser ← currentUserChecker packages authorization
    return some currentUser
  else return none

/-- A request is answered; where a check throws, with the error. -/
def serve (route : Route) (began : Nat) : Async Unit := do
  let handler : Async (Option (Option UserDto)) := do
    let currentUser ← runChecks packages authorization route
    return some currentUser
  let admitted ← handler.tryCatch (return none)
  Prog.await (Call.respond route authorization began admitted)

end Checks

/-! ## Runs -/

/-- What the services see.  The clock counts milliseconds; `moments` says what was stored when. -/
structure World where
  now : Nat
  tables : Tables
  moments : List (Nat × Tables)
  signed : List Signed
  responses : List Response

namespace World

variable (w : World)

def withSigned (signed : Signed) : World := { w with signed := w.signed ++ [signed] }

def withResponse (r : Response) : World := { w with responses := w.responses ++ [r] }

/-- Rows are written. -/
def write (tables : Tables) : World :=
  { w with tables, moments := w.moments ++ [(w.now, tables)] }

/-- Time passes. -/
def tick (ms : Nat) : World :=
  { w with now := w.now + ms, moments := w.moments ++ [(w.now + ms, w.tables)] }

end World

/-- Everything that is under way. -/
abbrev Hub := Pool World Unit Call Call.Answer

/-- A step of a run. -/
inductive Label where
  | signin (args : SigninArgs)
  | signout (accesToken : Option String)
  | request (route : Route) (authorization : Option String)
  /-- The call of the `j`-th task is answered. -/
  | advance (j : Nat)
  /-- It is rejected. -/
  | reject (j : Nat)
  /-- The process of the `j`-th task stops. -/
  | abandon (j : Nat)
  | write (tables : Tables)
  | tick (ms : Nat)

namespace Packages

variable (packages : Packages)

/-- What a call does. -/
def perform : Perform World Unit Unit Call Call.Answer
  | _, _, .findOne email, w => (w.tables.findOne email, w)
  | _, _, .compare data encrypted, w => (packages.compare data encrypted, w)
  | _, _, .role id, w => (w.tables.role id, w)
  | _, _, .sign args began currentUser, w =>
    match packages.timespan with
    | none => (none, w)
    | some timespan =>
      let exp := seconds w.now + timespan
      let accessToken := packages.sign currentUser (seconds w.now) exp
      (some accessToken, w.withSigned ⟨args, began, currentUser, accessToken, exp, w.now⟩)
  | _, _, .verify token, w => (packages.verify w.now token, w)
  | _, _, .now, w => (w.now, w)
  | _, _, .respond route authorization began admitted, w =>
    ((), w.withResponse ⟨route, authorization, began, admitted, w.now⟩)

/-- Nothing is started without being awaited. -/
def background (_ : Unit) (_ : Call) : Unit := ()

/-- The call that the `j`-th task awaits may be rejected. -/
def mayReject (s : Hub) (j : Nat) : Bool :=
  match s.tasks[j]? with
  | some ⟨_, .call op _ _⟩ => op.fails
  | _ => false

/-- What a label does where it is enabled. -/
def fire (s : Hub) : Label → Option Hub
  | .signin args => some (s.begin background () (do
    let _ ← Auth.signin args s.world.now
    return ()))
  | .signout accesToken => some (s.begin background () (do
    let _ ← Auth.signout accesToken
    return ()))
  | .request route authorization =>
    some (s.begin background () (Auth.serve packages authorization route s.world.now))
  | .advance j => s.advance background packages.perform j ()
  | .reject j => if mayReject s j then s.reject background j else none
  | .abandon j => s.abandon j
  | .write tables => some { s with world := s.world.write tables }
  | .tick ms => some { s with world := s.world.tick ms }

/-- Runs of the services. -/
def machine (tables : Tables) : Machine Hub Label where
  initial := ⟨⟨0, tables, [(0, tables)], [], []⟩, []⟩
  fire := packages.fire

/-- The token that the checks find in a header. -/
def bearer (authorization : Option String) : Option String :=
  (authorization.filter isBearer).bind packages.fromAuthHeaderAsBearerToken

/-- The runs in which nobody forges a signature: a request that carries a token with the signature
of the key carries one that was signed. -/
def unforged {tables : Tables} : (packages.machine tables).Policy
  | s, .request _ authorization => (packages.bearer authorization).all fun token =>
    (packages.decode token).isNone || s.world.signed.any (·.accessToken = token)
  | _, _ => true

end Packages

end InvoiceHub.Auth
