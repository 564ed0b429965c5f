import InvoiceHub.Auth.Tokens
import Mathlib.Algebra.Order.Ring.Int

/-!
# Who is let in

However requests, sign-ins and writes interleave: a request is let in where its token was signed for
somebody whose password was right and whose role the route asks for, until the token expires, and
neither a signout nor a write changes that.  What is signed and what is remembered of a request are
kept by every step (`upheld_reachable`).
-/

namespace InvoiceHub.Auth

open Effects

variable {packages : Packages} {w w' : World}

/-! ## What is known of tokens and requests -/

/-- What the token of a header says. -/
def Packages.presented (packages : Packages) (authorization : Option String) : Option JwtPayload :=
  (packages.bearer authorization).bind packages.decode

/-- The route lets users of the role in. -/
def Privileged (route : Route) (currentUser : UserDto) : Prop :=
  ∃ role, currentUser.role = some role ∧ role.name ∈ route.roles

/-- A user with the email was found since `began`. -/
def Found (w : World) (email : String) (began : Nat) (user : User) : Prop :=
  ∃ found ∈ w.moments, began ≤ found.1 ∧ found.1 ≤ w.now ∧ found.2.findOne email = some user

/-- While `signin` ran, a user had the email and the password, and later this role. -/
def Credible (packages : Packages) (w : World) (args : SigninArgs) (began : Nat)
    (currentUser : UserDto) (signedAt : Nat) : Prop :=
  ∃ found ∈ w.moments, ∃ loaded ∈ w.moments, ∃ user, began ≤ found.1 ∧ found.1 ≤ loaded.1 ∧
    loaded.1 ≤ signedAt ∧ found.2.findOne args.email = some user ∧
    packages.compare args.password user.password = true ∧
    currentUser = ⟨user.id, loaded.2.role user.id⟩

/-- What holds of a token that was signed. -/
structure Genuine (packages : Packages) (w : World) (signed : Signed) : Prop where
  credible : Credible packages w signed.args signed.began signed.currentUser signed.signedAt
  accessToken : signed.accessToken =
    packages.sign signed.currentUser (seconds signed.signedAt) signed.exp
  exp : packages.timespan.map (seconds signed.signedAt + ·) = some signed.exp

/-- What the answer to a request says. -/
structure Explained (packages : Packages) (w : World) (route : Route)
    (authorization : Option String) (began : Nat) (admitted : Option (Option UserDto))
    (ended : Nat) : Prop where
  granted : ∀ currentUser, admitted = some currentUser → ∃ signed ∈ w.signed,
    packages.bearer authorization = some signed.accessToken ∧
      Privileged route signed.currentUser ∧ began < 1000 * signed.exp ∧
      currentUser = if route.currentUser then some signed.currentUser else none
  refused : admitted = none → ∀ payload currentUser,
    packages.presented authorization = some payload → payload.currentUser = some currentUser →
      Privileged route currentUser → ∃ exp, payload.exp = some exp ∧ 1000 * exp ≤ ended

/-- Time goes on, and what was stored and signed stays so. -/
structure Later (w w' : World) : Prop where
  now : w.now ≤ w'.now
  moments : w.moments ⊆ w'.moments
  signed : w.signed ⊆ w'.signed

theorem Later.refl (w : World) : Later w w := ⟨le_rfl, List.Subset.refl _, List.Subset.refl _⟩

theorem Later.trans {w'' : World} (h : Later w w') (h' : Later w' w'') : Later w w'' :=
  ⟨h.now.trans h'.now, List.Subset.trans h.moments h'.moments,
    List.Subset.trans h.signed h'.signed⟩

section Later

variable {args : SigninArgs} {began : Nat} {currentUser : UserDto} {user : User}

theorem Found.later {email : String} (h : Found w email began user) (hl : Later w w') :
    Found w' email began user := by
  obtain ⟨found, hmem, hbegan, hnow, hfound⟩ := h
  exact ⟨found, hl.moments hmem, hbegan, hnow.trans hl.now, hfound⟩

theorem Credible.later {signedAt signedAt' : Nat}
    (h : Credible packages w args began currentUser signedAt) (hl : Later w w')
    (hs : signedAt ≤ signedAt') : Credible packages w' args began currentUser signedAt' := by
  obtain ⟨found, hfound, loaded, hloaded, user, hbegan, hle, hsigned, h⟩ := h
  exact ⟨found, hl.moments hfound, loaded, hl.moments hloaded, user, hbegan, hle,
    hsigned.trans hs, h⟩

theorem Genuine.later {signed : Signed} (h : Genuine packages w signed) (hl : Later w w') :
    Genuine packages w' signed :=
  ⟨h.credible.later hl le_rfl, h.accessToken, h.exp⟩

theorem Explained.later {route : Route} {authorization : Option String}
    {admitted : Option (Option UserDto)} {ended ended' : Nat}
    (h : Explained packages w route authorization began admitted ended) (hl : Later w w')
    (he : ended ≤ ended') : Explained packages w' route authorization began admitted ended' where
  granted currentUser heq := by
    obtain ⟨signed, hmem, h⟩ := h.granted currentUser heq
    exact ⟨signed, hl.signed hmem, h⟩
  refused heq payload currentUser hpayload huser hrole := by
    obtain ⟨exp, hexp, hle⟩ := h.refused heq payload currentUser hpayload huser hrole
    exact ⟨exp, hexp, hle.trans (Int.ofNat_le.mpr he)⟩

end Later

/-- What holds of the services. -/
structure Holds (packages : Packages) (w : World) : Prop where
  present : (w.now, w.tables) ∈ w.moments
  signed : ∀ signed ∈ w.signed, Genuine packages w signed
  responses : ∀ r ∈ w.responses,
    Explained packages w r.route r.authorization r.began r.admitted r.ended

/-- What holds where a call is made. -/
def Allowed (packages : Packages) : Call → World → Prop
  | .sign args began currentUser, w => Credible packages w args began currentUser w.now
  | .respond route authorization began admitted, w =>
    Explained packages w route authorization began admitted w.now
  | _, _ => True

theorem Allowed.later {op : Call} (h : Allowed packages op w) (hl : Later w w') :
    Allowed packages op w' := by
  cases op with
  | sign args began currentUser => exact Credible.later h hl hl.now
  | respond route authorization began admitted => exact Explained.later h hl hl.now
  | _ => trivial

/-- What holds stays so while nothing is signed or answered. -/
theorem Holds.later (h : Holds packages w) (hl : Later w w') (hp : (w'.now, w'.tables) ∈ w'.moments)
    (hs : w'.signed = w.signed) (hr : w'.responses = w.responses) : Holds packages w' where
  present := hp
  signed signed hmem := (h.signed signed (hs ▸ hmem)).later hl
  responses r hmem := (h.responses r (hr ▸ hmem)).later hl le_rfl

theorem later_withSigned (w : World) (signed : Signed) : Later w (w.withSigned signed) :=
  ⟨le_rfl, List.Subset.refl _, List.subset_append_left _ _⟩

theorem Holds.withSigned (h : Holds packages w) {signed : Signed} (hs : Genuine packages w signed) :
    Holds packages (w.withSigned signed) where
  present := h.present
  signed signed' hmem := by
    refine Genuine.later ?_ (later_withSigned w signed)
    rcases List.mem_append.mp hmem with hmem | hmem
    · exact h.signed signed' hmem
    · exact List.mem_singleton.mp hmem ▸ hs
  responses r hmem := (h.responses r hmem).later (later_withSigned w signed) le_rfl

theorem later_withResponse (w : World) (r : Response) : Later w (w.withResponse r) :=
  ⟨le_rfl, List.Subset.refl _, List.Subset.refl _⟩

theorem Holds.withResponse (h : Holds packages w) {r : Response}
    (hr : Explained packages w r.route r.authorization r.began r.admitted r.ended) :
    Holds packages (w.withResponse r) where
  present := h.present
  signed signed hmem := (h.signed signed hmem).later (later_withResponse w r)
  responses r' hmem := by
    refine Explained.later ?_ (later_withResponse w r) le_rfl
    rcases List.mem_append.mp hmem with hmem | hmem
    · exact h.responses r' hmem
    · exact List.mem_singleton.mp hmem ▸ hr

theorem Holds.perform (h : Holds packages w) (op : Call) (ha : Allowed packages op w) :
    Holds packages (packages.perform () () op w).2 ∧ Later w (packages.perform () () op w).2 := by
  cases op with
  | sign args began currentUser =>
    unfold Packages.perform
    cases htimespan : packages.timespan with
    | none => exact ⟨h, .refl w⟩
    | some timespan =>
      refine ⟨h.withSigned ⟨ha, rfl, ?_⟩, later_withSigned w _⟩
      rw [htimespan]
      rfl
  | respond route authorization began admitted => exact ⟨h.withResponse ha, later_withResponse w _⟩
  | _ => exact ⟨h, .refl w⟩

/-- Everything that is under way sees the others only so. -/
def interference (packages : Packages) : Interference packages.perform where
  holds := Holds packages
  changes := Later
  allow := Allowed packages
  fails op := op.fails = true
  refl := .refl
  trans _ _ _ := .trans
  stable _ _ _ hl ha := ha.later hl
  moves _ _ op _ h ha := h.perform op ha

/-! ## `signin` and `signout` -/

section Signin

variable {args : SigninArgs} {began : Nat} {user : User}

theorem meets_generateLoginResponse {currentUser : UserDto}
    (h : Credible packages w args began currentUser w.now) :
    (interference packages).Meets (generateLoginResponse args began currentUser)
      (fun _ _ => True) w := by
  unfold generateLoginResponse
  refine Interference.meets_await h (fun w₁ _ _ _ _ => ?_) (fun hf => by cases hf)
  split <;> trivial

theorem Found.credible (h : Found w args.email began user)
    (hsame : packages.compare args.password user.password = true) (hl : Later w w')
    (h' : Holds packages w') :
    Credible packages w' args began ⟨user.id, w'.tables.role user.id⟩ w'.now := by
  obtain ⟨found, hmem, hbegan, hnow, hfound⟩ := h
  exact ⟨found, hl.moments hmem, _, h'.present, user, hbegan, hnow.trans hl.now, le_rfl, hfound,
    hsame, rfl⟩

theorem meets_signin (hw : began ≤ w.now) :
    (interference packages).Meets (signin args began) (fun _ _ => True) w := by
  unfold signin
  refine Interference.meets_await trivial (fun w₁ _ _ hl₁ h₁ => ?_) (fun _ => trivial)
  dsimp only [Packages.perform]
  cases hfind : w₁.tables.findOne args.email with
  | none => trivial
  | some user =>
    have hfound : Found w₁ args.email began user :=
      ⟨_, h₁.present, hw.trans hl₁.now, le_rfl, hfind⟩
    refine Interference.meets_await trivial (fun w₂ _ _ hl₂ _ => ?_) (fun _ => trivial)
    dsimp only [Packages.perform]
    split
    · rename_i hsame
      refine Interference.meets_await trivial (fun w₃ _ _ hl₃ h₃ => ?_) (fun _ => trivial)
      exact meets_generateLoginResponse ((hfound.later hl₂).credible hsame hl₃ h₃)
    · trivial

theorem keeps_signin (hw : began ≤ w.now) :
    (interference packages).Keeps (do let _ ← signin args began; return ()) w :=
  Interference.meets_bind ((meets_signin hw).mono fun o _ _ => by cases o <;> trivial)

theorem keeps_signout (accesToken : Option String) :
    (interference packages).Keeps (do let _ ← signout accesToken; return ()) w := by
  refine Interference.meets_bind ?_
  unfold signout
  refine Interference.meets_await trivial (fun w₁ _ _ _ _ => ?_) (fun hf => by cases hf)
  split <;> trivial

end Signin

/-! ## The checks -/

section Checks

variable {authorization : Option String} {route : Route}

/-- A check has let a token through that says `u`. -/
def Presents (packages : Packages) (authorization : Option String) (began : Nat)
    (u : Option UserDto) : Prop :=
  ∃ payload, packages.presented authorization = some payload ∧ payload.currentUser = u ∧
    ∀ exp, payload.exp = some exp → began < 1000 * exp

/-- A check refuses only what has expired. -/
def Expired (packages : Packages) (authorization : Option String) (now : Nat) : Prop :=
  ∀ payload, packages.presented authorization = some payload →
    ∃ exp, payload.exp = some exp ∧ 1000 * exp ≤ now

theorem seconds_le (now : Nat) : 1000 * seconds now ≤ now := by
  unfold seconds
  omega

theorem lt_of_seconds_lt {now : Nat} {exp : Int} (h : seconds now < exp) : now < 1000 * exp := by
  unfold seconds at h
  omega

theorem verify_eq_some {now : Nat} {token : String} {payload : JwtPayload}
    (h : packages.verify now token = some payload) : packages.decode token = some payload ∧
      ∀ exp, payload.exp = some exp → seconds now < exp := by
  obtain ⟨hdecode, hexp⟩ := Option.filter_eq_some_iff.mp h
  refine ⟨hdecode, fun exp heq => ?_⟩
  rw [heq] at hexp
  exact of_decide_eq_true hexp

theorem verify_eq_none {now : Nat} {token : String} (h : packages.verify now token = none)
    {payload : JwtPayload} (hdecode : packages.decode token = some payload) :
    ∃ exp, payload.exp = some exp ∧ exp ≤ seconds now := by
  unfold Packages.verify at h
  rw [hdecode] at h
  have hexp := Option.filter_eq_none_iff.mp h payload rfl
  cases heq : payload.exp with
  | none =>
    rw [heq] at hexp
    exact absurd rfl hexp
  | some exp =>
    rw [heq] at hexp
    exact ⟨exp, rfl, Int.not_lt.mp fun hlt => hexp (decide_eq_true hlt)⟩

theorem meets_getTokenData {header : String}
    (hpresented : packages.presented authorization =
      (packages.fromAuthHeaderAsBearerToken header).bind packages.decode) :
    (interference packages).Meets (getTokenData packages header)
      (fun o w' => match o with
        | some u => Presents packages authorization w.now u
        | none => Expired packages authorization w'.now) w := by
  unfold getTokenData
  cases htoken : packages.fromAuthHeaderAsBearerToken header with
  | none =>
    intro payload hpayload
    rw [hpresented, htoken] at hpayload
    cases hpayload
  | some token =>
    rw [htoken, Option.bind_some] at hpresented
    refine Interference.meets_await trivial (fun w₁ _ _ hl₁ _ => ?_) (fun hf => by cases hf)
    dsimp only [Packages.perform]
    cases hverify : packages.verify w₁.now token with
    | none =>
      intro payload hpayload
      obtain ⟨exp, hexp, hle⟩ := verify_eq_none hverify (hpresented ▸ hpayload)
      exact ⟨exp, hexp, (by omega : 1000 * exp ≤ 1000 * seconds w₁.now).trans (seconds_le _)⟩
    | some payload =>
      obtain ⟨hdecode, hlt⟩ := verify_eq_some hverify
      have hpresents : Presents packages authorization w.now payload.currentUser := by
        refine ⟨payload, hpresented.trans hdecode, rfl, fun exp hexp => ?_⟩
        exact (Int.ofNat_le.mpr hl₁.now).trans_lt (lt_of_seconds_lt (hlt exp hexp))
      dsimp only
      split
      · exact hpresents
      · rename_i exp hexp
        refine Interference.meets_await trivial (fun w₂ _ _ _ _ => ?_) (fun hf => by cases hf)
        dsimp only [Packages.perform]
        split
        · rename_i hle
          intro payload' hpayload
          rw [hpresented, hdecode] at hpayload
          cases hpayload
          exact ⟨exp, (Option.filter_eq_some_iff.mp hexp).1, by omega⟩
        · exact hpresents

theorem meets_generateExpressContext :
    (interference packages).Meets (generateExpressContext packages authorization)
      (fun o w' => match o with
        | some u => Presents packages authorization w.now u
        | none => Expired packages authorization w'.now) w := by
  unfold generateExpressContext
  cases hheader : authorization.filter isBearer with
  | none =>
    intro payload hpayload
    unfold Packages.presented Packages.bearer at hpayload
    rw [hheader] at hpayload
    cases hpayload
  | some header =>
    refine meets_getTokenData ?_
    unfold Packages.presented Packages.bearer
    rw [hheader, Option.bind_some]

/-- The role of the user lets the request in. -/
structure Passes (packages : Packages) (authorization : Option String) (route : Route)
    (payload : JwtPayload) (currentUser : UserDto) : Prop where
  presented : packages.presented authorization = some payload
  user : payload.currentUser = some currentUser
  privileged : Privileged route currentUser

/-- What a check says: it lets a request in before the token expires, and refuses one that would
pass after that only. -/
def Checked (packages : Packages) (authorization : Option String) (route : Route) (began : Nat)
    {α : Type} (admits : UserDto → α → Prop) (o : Option α) (w : World) : Prop :=
  match o with
  | some a => ∃ payload currentUser, Passes packages authorization route payload currentUser ∧
      (∀ exp, payload.exp = some exp → began < 1000 * exp) ∧ admits currentUser a
  | none => ∀ payload currentUser, Passes packages authorization route payload currentUser →
      ∃ exp, payload.exp = some exp ∧ 1000 * exp ≤ w.now

theorem meets_authorizationChecker :
    (interference packages).Meets (authorizationChecker packages authorization route.roles)
      (Checked packages authorization route w.now fun _ _ => True) w := by
  refine Interference.meets_bind (meets_generateExpressContext.mono fun o w' ho => ?_)
  cases o with
  | none => exact fun payload currentUser hpasses => ho payload hpasses.presented
  | some u =>
    obtain ⟨payload, hpresented, rfl, hexp⟩ := ho
    have hrefused : (∀ currentUser, payload.currentUser = some currentUser →
        ¬Privileged route currentUser) → Checked packages authorization route w.now
          (fun _ (_ : Bool) => True) none w' := by
      intro h payload' currentUser hpasses
      obtain rfl : payload = payload' :=
        Option.some_inj.mp (hpresented.symm.trans hpasses.presented)
      exact absurd hpasses.privileged (h currentUser hpasses.user)
    dsimp only
    split
    · rename_i hnone
      exact hrefused fun currentUser heq => by rw [hnone] at heq; cases heq
    · rename_i currentUser hcurrentUser
      have hunique : ∀ currentUser', payload.currentUser = some currentUser' →
          currentUser = currentUser' := fun currentUser' heq =>
        Option.some_inj.mp (hcurrentUser.symm.trans heq)
      split
      · rename_i hrole
        refine hrefused fun currentUser' heq => ?_
        rintro ⟨role, hsome, -⟩
        rw [← hunique currentUser' heq, hrole] at hsome
        cases hsome
      · rename_i role hrole
        split
        · rename_i hroles
          refine hrefused fun currentUser' heq => ?_
          rintro ⟨role', hsome, hmem⟩
          rw [← hunique currentUser' heq, hrole] at hsome
          cases hsome
          rcases hroles with hnil | hno
          · rw [hnil] at hmem
            cases hmem
          · exact hno hmem
        · rename_i hroles
          rw [not_or, not_not] at hroles
          exact ⟨payload, currentUser, ⟨hpresented, hcurrentUser, role, hrole, hroles.2⟩, hexp,
            trivial⟩

theorem meets_currentUserChecker :
    (interference packages).Meets (currentUserChecker packages authorization)
      (fun o w' => match o with
        | some currentUser => ∃ payload, packages.presented authorization = some payload ∧
            payload.currentUser = some currentUser
        | none => ∀ payload currentUser, packages.presented authorization = some payload →
            payload.currentUser = some currentUser →
              ∃ exp, payload.exp = some exp ∧ 1000 * exp ≤ w'.now) w := by
  refine Interference.meets_bind (meets_generateExpressContext.mono fun o w' ho => ?_)
  cases o with
  | none => exact fun payload currentUser hpresented _ => ho payload hpresented
  | some u =>
    obtain ⟨payload, hpresented, rfl, -⟩ := ho
    dsimp only
    split
    · rename_i hnone
      intro payload' currentUser hpresented' hcurrentUser
      obtain rfl : payload = payload' := Option.some_inj.mp (hpresented.symm.trans hpresented')
      rw [hnone] at hcurrentUser
      cases hcurrentUser
    · rename_i currentUser hcurrentUser
      exact ⟨payload, hpresented, hcurrentUser⟩

theorem meets_runChecks :
    (interference packages).Meets (runChecks packages authorization route)
      (Checked packages authorization route w.now fun currentUser admitted =>
        admitted = if route.currentUser then some currentUser else none) w := by
  refine Interference.meets_bind (meets_authorizationChecker.mono fun o w₁ ho => ?_)
  cases o with
  | none => exact ho
  | some granted =>
    obtain ⟨payload, currentUser, hpasses, hexp, -⟩ := ho
    dsimp only
    split
    · refine Interference.meets_bind (meets_currentUserChecker.mono fun o w₂ ho => ?_)
      cases o with
      | none =>
        intro payload' currentUser' hpasses'
        exact ho payload' currentUser' hpasses'.presented hpasses'.user
      | some currentUser' =>
        obtain ⟨payload', hpresented, hcurrentUser⟩ := ho
        obtain rfl : payload = payload' :=
          Option.some_inj.mp (hpasses.presented.symm.trans hpresented)
        obtain rfl : currentUser = currentUser' :=
          Option.some_inj.mp (hpasses.user.symm.trans hcurrentUser)
        exact ⟨payload, currentUser, hpasses, hexp, rfl⟩
    · exact ⟨payload, currentUser, hpasses, hexp, rfl⟩

/-- A token with the signature of the key is one that was signed. -/
def Packages.Unforged (packages : Packages) (w : World) (authorization : Option String) : Prop :=
  ∀ token, packages.bearer authorization = some token → packages.decode token ≠ none →
    ∃ signed ∈ w.signed, signed.accessToken = token

theorem Genuine.decode {signed : Signed} (h : Genuine packages w signed) :
    packages.decode signed.accessToken =
      some ⟨some signed.currentUser, some (seconds signed.signedAt), some signed.exp⟩ := by
  rw [h.accessToken, packages.decode_sign]

/-- What passes was signed. -/
theorem Passes.signed {payload : JwtPayload} {currentUser : UserDto}
    (h : Passes packages authorization route payload currentUser)
    (hunforged : packages.Unforged w authorization) (hw : Holds packages w) :
    ∃ signed ∈ w.signed, packages.bearer authorization = some signed.accessToken ∧
      signed.currentUser = currentUser ∧ payload.exp = some signed.exp := by
  obtain ⟨token, htoken, hdecode⟩ := Option.bind_eq_some_iff.mp h.presented
  obtain ⟨signed, hmem, rfl⟩ := hunforged token htoken (by rw [hdecode]; nofun)
  rw [(hw.signed signed hmem).decode, Option.some_inj] at hdecode
  subst hdecode
  exact ⟨signed, hmem, htoken, Option.some_inj.mp h.user, rfl⟩

theorem Checked.explained {began : Nat} {o : Option (Option UserDto)}
    (h : Checked packages authorization route began (fun currentUser admitted =>
      admitted = if route.currentUser then some currentUser else none) o w')
    (hunforged : packages.Unforged w authorization) (hw : Holds packages w) (hl : Later w w') :
    Explained packages w' route authorization began o w'.now where
  granted currentUser heq := by
    subst heq
    obtain ⟨payload, currentUser, hpasses, hexp, rfl⟩ := h
    obtain ⟨signed, hmem, hbearer, rfl, hsigned⟩ := hpasses.signed hunforged hw
    exact ⟨signed, hl.signed hmem, hbearer, hpasses.privileged, hexp _ hsigned, rfl⟩
  refused heq payload currentUser hpayload huser hrole := by
    subst heq
    exact h payload currentUser ⟨hpayload, huser, hrole⟩

theorem keeps_serve (hunforged : packages.Unforged w authorization) (hw : Holds packages w) :
    (interference packages).Keeps (serve packages authorization route w.now) w := by
  have hrespond : ∀ (o : Option (Option UserDto)) (w' : World),
      Explained packages w' route authorization w.now o w'.now →
        (interference packages).Meets (Prog.await (.respond route authorization w.now o))
          (fun _ _ => True) w' :=
    fun o w' ho => ⟨ho, fun _ _ _ => trivial, fun _ => trivial⟩
  refine Interference.meets_bind (Interference.meets_tryCatch (Interference.meets_bind
    ((meets_runChecks.changes (.refl w)).mono fun o w₁ ho => ?_)))
  obtain ⟨ho, hl⟩ := ho
  have hexplained := ho.explained hunforged hw hl
  cases o with
  | none => exact hrespond none w₁ hexplained
  | some admitted => exact hrespond (some admitted) w₁ hexplained

end Checks

/-! ## Runs -/

section Runs

variable {tables : Tables} {s s' : Hub}

theorem upheld_fire (h : (interference packages).Upheld s) {label : Label}
    (hp : (packages.unforged : (packages.machine tables).Policy) s label = true)
    (hf : packages.fire s label = some s') : (interference packages).Upheld s' := by
  cases label with
  | signin args =>
    cases hf
    exact h.begin (keeps_signin le_rfl)
  | signout accesToken =>
    cases hf
    exact h.begin (keeps_signout accesToken)
  | request route authorization =>
    cases hf
    refine h.begin (keeps_serve (fun token htoken hdecode => ?_) h.world)
    have hp : (packages.bearer authorization).all (fun token =>
        (packages.decode token).isNone || s.world.signed.any (·.accessToken = token)) = true := hp
    rw [htoken, Option.all_some, Bool.or_eq_true, Option.isNone_iff_eq_none] at hp
    obtain ⟨signed, hmem, hsigned⟩ := List.any_eq_true.mp (hp.resolve_left hdecode)
    exact ⟨signed, hmem, of_decide_eq_true hsigned⟩
  | advance j => exact h.advance hf
  | reject j =>
    unfold Packages.fire at hf
    dsimp only at hf
    split at hf
    · rename_i hreject
      refine h.reject hf fun tag op ok err hget => ?_
      unfold Packages.mayReject at hreject
      rw [hget] at hreject
      exact hreject
    · cases hf
  | abandon j => exact h.abandon hf
  | write tables =>
    cases hf
    have hl : Later s.world (s.world.write tables) :=
      ⟨le_rfl, List.subset_append_left _ _, List.Subset.refl _⟩
    exact h.change hl (h.world.later hl (List.mem_append_right _ List.mem_cons_self) rfl rfl)
  | tick ms =>
    cases hf
    have hl : Later s.world (s.world.tick ms) :=
      ⟨Nat.le_add_right _ _, List.subset_append_left _ _, List.Subset.refl _⟩
    exact h.change hl (h.world.later hl (List.mem_append_right _ List.mem_cons_self) rfl rfl)

theorem upheld_reachable (hs : (packages.machine tables).Reachable packages.unforged s) :
    (interference packages).Upheld s := by
  refine hs.induction ⟨⟨List.mem_cons_self, fun _ hmem => ?_, fun _ hmem => ?_⟩,
    fun _ hmem => ?_⟩ fun s s' _ h ⟨label, hp, hf⟩ => upheld_fire h hp hf
  · cases hmem
  · cases hmem
  · cases hmem

/-- Each request whose handler ran carried the token of somebody whose password was right while
they signed in and whose role, loaded then, the route asks for, and began before the token
expired; one that was refused carried no such token, or ended after that. -/
theorem requests_explained (hs : (packages.machine tables).Reachable packages.unforged s) :
    (∀ r ∈ s.world.responses,
      (∀ currentUser, r.admitted = some currentUser → ∃ signed ∈ s.world.signed,
        packages.bearer r.authorization = some signed.accessToken ∧
          Privileged r.route signed.currentUser ∧ r.began < 1000 * signed.exp ∧
          currentUser = if r.route.currentUser then some signed.currentUser else none) ∧
      (r.admitted = none → ∀ signed ∈ s.world.signed,
        packages.bearer r.authorization = some signed.accessToken →
          Privileged r.route signed.currentUser → 1000 * signed.exp ≤ r.ended)) ∧
    ∀ signed ∈ s.world.signed,
      Credible packages s.world signed.args signed.began signed.currentUser signed.signedAt ∧
        packages.timespan.map (seconds signed.signedAt + ·) = some signed.exp := by
  have hworld := (upheld_reachable hs).world
  refine ⟨fun r hr => ⟨(hworld.responses r hr).granted, ?_⟩, fun signed hmem => ?_⟩
  · intro hrefused signed hmem hbearer hrole
    have hpresented : packages.presented r.authorization = _ :=
      (congrArg (·.bind packages.decode) hbearer).trans (hworld.signed signed hmem).decode
    obtain ⟨exp, hexp, hle⟩ :=
      (hworld.responses r hr).refused hrefused _ signed.currentUser hpresented rfl hrole
    cases hexp
    exact hle
  · exact ⟨(hworld.signed signed hmem).credible, (hworld.signed signed hmem).exp⟩

end Runs

/-! ## A run -/

/-- A number in a token. -/
def mark (n : Nat) : List Char := List.replicate n '1' ++ ['.']

def readMark : List Char → Option (Nat × List Char)
  | '.' :: rest => some (0, rest)
  | '1' :: rest => (readMark rest).map fun read => (read.1 + 1, read.2)
  | _ => none

theorem readMark_mark (n : Nat) (rest : List Char) :
    readMark (mark n ++ rest) = some (n, rest) := by
  induction n with
  | zero => rfl
  | succ n ih =>
    have hmark : mark (n + 1) = '1' :: mark n := rfl
    rw [hmark, List.cons_append, readMark, ih]
    rfl

/-- A text in a token, after its length. -/
def text (s : String) : List Char := mark s.toList.length ++ s.toList

def readText (token : List Char) : Option (String × List Char) :=
  (readMark token).map fun read => (String.ofList (read.2.take read.1), read.2.drop read.1)

theorem readText_text (s : String) (rest : List Char) :
    readText (text s ++ rest) = some (s, rest) := by
  rw [readText, text, List.append_assoc, readMark_mark, Option.map_some, List.take_left,
    List.drop_left, String.ofList_toList]

/-- Seconds in a token. -/
def time (exp : Int) : List Char := mark exp.toNat ++ mark (-exp).toNat

def readTime (token : List Char) : Option (Int × List Char) := do
  let after ← readMark token
  let before ← readMark after.2
  return ((after.1 : Int) - before.1, before.2)

theorem readTime_time (exp : Int) (rest : List Char) :
    readTime (time exp ++ rest) = some (exp, rest) := by
  unfold readTime time
  rw [List.append_assoc, readMark_mark]
  simp only [Option.bind_eq_bind, Option.bind_some, readMark_mark]
  congr 2
  omega

/-- Tokens that say in clear what they say, and hashes that show what was hashed. -/
def plainTokens : Packages where
  compare data encrypted := encrypted = "hash of " ++ data
  sign currentUser iat exp := String.ofList (time iat ++ (time exp ++ (text currentUser.id ++
    match currentUser.role with
    | none => mark 0
    | some role => mark 1 ++ text role.name)))
  decode token := do
    let iat ← readTime token.toList
    let exp ← readTime iat.2
    let id ← readText exp.2
    let roles ← readMark id.2
    let role := if roles.1 = 0 then none else (readText roles.2).map fun name => ⟨name.1⟩
    return ⟨some ⟨id.1, role⟩, some iat.1, some exp.1⟩
  timespan := some 60
  fromAuthHeaderAsBearerToken header := some (String.ofList (header.toList.drop 7))
  decode_sign := by
    rintro ⟨id, role⟩ iat exp
    simp only [String.toList_ofList, readTime_time, readText_text, Option.bind_eq_bind,
      Option.bind_some]
    cases role with
    | none => rfl
    | some role =>
      have hname := readText_text role.name []
      rw [List.append_nil] at hname
      simp only [readMark_mark, Option.bind_some, hname]
      rfl

/-- A user who is not an administrator. -/
def oneUser : Tables where
  users := [⟨"user", "user@mail", "hash of secret", some "role"⟩]
  roles := [⟨"role", "Standard"⟩]

/-- Somebody signs in; then they sign out, and their row is gone. -/
def signedOut : List Label :=
  let accessToken := plainTokens.sign ⟨"user", some ⟨"Standard"⟩⟩ 0 60
  let order : Label := .request ⟨["Global Admin", "Admin", "Standard"], true⟩
    (some ("Bearer " ++ accessToken))
  [.signin ⟨"user@mail", "secret"⟩] ++ List.replicate 4 (.advance 0) ++
  [.signout (some ("Bearer " ++ accessToken)), .advance 0, .write ⟨[], []⟩, .tick 59999, order] ++
  List.replicate 5 (.advance 0) ++ [.tick 1, order] ++ List.replicate 2 (.advance 0)

theorem requests_explained_signedOut :
    ∃ s, (plainTokens.machine oneUser).run plainTokens.unforged
        (plainTokens.machine oneUser).initial signedOut = some s ∧
      s.world.tables.users.length = 0 ∧
      s.world.responses.map (fun r => (r.ended, r.admitted.isSome)) =
        [(59999, true), (60000, false)] ∧
      ∀ r ∈ s.world.responses, ∀ currentUser, r.admitted = some currentUser →
        ∃ signed ∈ s.world.signed,
          plainTokens.bearer r.authorization = some signed.accessToken ∧
            Privileged r.route signed.currentUser ∧ r.began < 1000 * signed.exp ∧
            currentUser = if r.route.currentUser then some signed.currentUser else none := by
  have hrun : ((plainTokens.machine oneUser).run plainTokens.unforged
      (plainTokens.machine oneUser).initial signedOut).any (fun s =>
        s.world.tables.users.length = 0 ∧
          s.world.responses.map (fun r => (r.ended, r.admitted.isSome)) =
            [(59999, true), (60000, false)]) = true := by
    decide +kernel
  obtain ⟨s, hs, h⟩ := (Option.any_eq_true _ _).mp hrun
  obtain ⟨husers, hresponses⟩ := of_decide_eq_true h
  have hexplained := requests_explained (Machine.run_steps signedOut hs)
  exact ⟨s, hs, husers, hresponses, fun r hr => (hexplained.1 r hr).1⟩

end InvoiceHub.Auth
