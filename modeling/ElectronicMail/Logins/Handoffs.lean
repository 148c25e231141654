import ElectronicMail.Foundations.Run

/-!
# Login codes and handoffs

A native login is a code in `mobile_login_codes` and a handoff in `mobile_oauth_handoffs` that
names it and the challenge of the client's verifier. Calls of any number of clients run statement
by statement: a statement reads a snapshot of the committed rows, takes the locks of the rows it
writes one after another, checks every row again once it has its lock, and commits.
-/

namespace ElectronicMail.Logins

/-- `hash_token`, and `mobile_exchange_code_challenge`. -/
structure Library where
  hashToken : String → String
  challenge : String → String

/-! ## Rows -/

/-- A row of `mobile_login_codes`. -/
structure LoginCode where
  userId : String
  expiresAt : Nat
  consumedAt : Option Nat

/-- A row of `mobile_oauth_handoffs`. `creation` is the call that has written it last. -/
structure Handoff where
  loginCodeHash : Option String
  exchangeCodeChallenge : Option String
  status : String
  expiresAt : Nat
  consumedAt : Option Nat
  creation : Nat

/-! ## Calls -/

/-- The arguments of `exchange_mobile_code`, and the time that it reads. -/
structure Exchange where
  code : String
  handoffId : String
  codeVerifier : String
  now : Nat
  deriving DecidableEq

inductive Operation where
  | createMobileCode (code userId : String) (expiresAt : Nat)
  | createMobileOauthHandoff (handoffId : String) (loginCodeHash : Option String)
      (exchangeCodeChallenge : Option String) (status : String) (expiresAt : Nat)
  | consumeMobileOauthHandoff (handoffId : String) (now : Nat)
  | exchangeMobileCode (exchange : Exchange)

/-- What has come of a call: it is done, it has been refused, its transaction has failed, or it
has consumed a code and ended with a session or without one. -/
inductive Outcome where
  | done
  | refused
  | failed
  | consumed

inductive Phase where
  | begun (operation : Operation)
  /-- The snapshot of a consuming statement has been taken. -/
  | scanned (operation : Operation) (handoff : Option Handoff) (code : Option LoginCode)
  /-- The row that is to be written is locked. -/
  | writing (operation : Operation)
  /-- `eligible_handoff` has a row. -/
  | eligible (exchange : Exchange) (code : Option LoginCode)
  /-- `consumed_code` has a row. -/
  | consuming (exchange : Exchange)
  /-- The code has been consumed, and the session is to be issued. -/
  | issuing (exchange : Exchange) (creation : Nat)
  | finished (operation : Operation) (outcome : Outcome)

structure Login where
  call : Nat
  exchange : Exchange
  creation : Nat
  deriving DecidableEq

/-- The committed rows, the calls, and what they have consumed and issued sessions for. -/
structure State where
  codes : String → Option LoginCode
  handoffs : String → Option Handoff
  calls : List Phase
  consumptions : List Login
  sessions : List Login

def State.start : State where
  codes := fun _ => none
  handoffs := fun _ => none
  calls := []
  consumptions := []
  sessions := []

/-! ## Conditions -/

/-- The condition of `consume_mobile_oauth_handoff`. -/
def Handoff.isOpen (now : Nat) (row : Handoff) : Bool :=
  row.consumedAt.isNone && decide (now < row.expiresAt)

def LoginCode.isOpen (now : Nat) (row : LoginCode) : Bool :=
  row.consumedAt.isNone && decide (now < row.expiresAt)

section Statements

variable (L : Library)

def Exchange.codeHash (exchange : Exchange) : String := L.hashToken exchange.code

/-- The condition of `eligible_handoff`. -/
def Exchange.accepts (exchange : Exchange) (row : Handoff) : Bool :=
  decide (row.status = "ready") && row.isOpen exchange.now &&
    decide (row.exchangeCodeChallenge = some (L.challenge exchange.codeVerifier)) &&
    decide (row.loginCodeHash = some (exchange.codeHash L))

/-! ## Locks -/

def Phase.lockedCode : Phase → Option String
  | .writing (.createMobileCode code _ _) => some (L.hashToken code)
  | .consuming exchange => some (exchange.codeHash L)
  | _ => none

def Phase.lockedHandoff : Phase → Option String
  | .writing (.createMobileOauthHandoff handoffId _ _ _ _) => some handoffId
  | .writing (.consumeMobileOauthHandoff handoffId _) => some handoffId
  | .eligible exchange _ => some exchange.handoffId
  | .consuming exchange => some exchange.handoffId
  | _ => none

def State.codeFree (s : State) (hash : String) : Bool :=
  s.calls.all fun phase => decide (phase.lockedCode L ≠ some hash)

def State.handoffFree (s : State) (handoffId : String) : Bool :=
  s.calls.all fun phase => decide (phase.lockedHandoff ≠ some handoffId)

/-! ## Steps -/

def State.go (s : State) (i : Nat) (phase : Phase) : State :=
  { s with calls := s.calls.set i phase }

def State.finish (s : State) (i : Nat) (operation : Operation) (outcome : Outcome) : State :=
  s.go i (.finished operation outcome)

def State.putCode (s : State) (hash : String) (row : LoginCode) : State :=
  { s with codes := Function.update s.codes hash (some row) }

def State.putHandoff (s : State) (handoffId : String) (row : Handoff) : State :=
  { s with handoffs := Function.update s.handoffs handoffId (some row) }

def State.beginStatement (s : State) (i : Nat) : Operation → State
  | .createMobileCode code userId expiresAt =>
    if s.codeFree L (L.hashToken code) then
      if (s.codes (L.hashToken code)).isSome then
        s.finish i (.createMobileCode code userId expiresAt) .failed
      else s.go i (.writing (.createMobileCode code userId expiresAt))
    else s
  | .createMobileOauthHandoff handoffId loginCodeHash exchangeCodeChallenge status expiresAt =>
    if s.handoffFree handoffId then
      s.go i (.writing
        (.createMobileOauthHandoff handoffId loginCodeHash exchangeCodeChallenge status expiresAt))
    else s
  | .consumeMobileOauthHandoff handoffId now =>
    s.go i (.scanned (.consumeMobileOauthHandoff handoffId now) (s.handoffs handoffId) none)
  | .exchangeMobileCode exchange =>
    s.go i (.scanned (.exchangeMobileCode exchange) (s.handoffs exchange.handoffId)
      (s.codes (exchange.codeHash L)))

/-- The row of the snapshot is locked, once it can be, and checked again. -/
def State.lockScanned (s : State) (i : Nat) (operation : Operation) (handoffId : String)
    (scanned : Option Handoff) (condition : Handoff → Bool) (next : Phase) : State :=
  if scanned.any condition then
    if s.handoffFree handoffId then
      if (s.handoffs handoffId).any condition then s.go i next
      else s.finish i operation .refused
    else s
  else s.finish i operation .refused

def State.scan (s : State) (i : Nat) (handoff : Option Handoff) (code : Option LoginCode) :
    Operation → State
  | .createMobileCode .. => s
  | .createMobileOauthHandoff .. => s
  | .consumeMobileOauthHandoff handoffId now =>
    s.lockScanned i (.consumeMobileOauthHandoff handoffId now) handoffId handoff
      (Handoff.isOpen now) (.writing (.consumeMobileOauthHandoff handoffId now))
  | .exchangeMobileCode exchange =>
    s.lockScanned i (.exchangeMobileCode exchange) exchange.handoffId handoff
      (exchange.accepts L) (.eligible exchange code)

/-- The row that a call has locked is written, and the transaction commits. -/
def State.write (s : State) (i : Nat) : Operation → State
  | .createMobileCode code userId expiresAt =>
    (s.putCode (L.hashToken code) ⟨userId, expiresAt, none⟩).finish i
      (.createMobileCode code userId expiresAt) .done
  | .createMobileOauthHandoff handoffId loginCodeHash exchangeCodeChallenge status expiresAt =>
    (s.putHandoff handoffId
        ⟨loginCodeHash, exchangeCodeChallenge, status, expiresAt, none, i⟩).finish i
      (.createMobileOauthHandoff handoffId loginCodeHash exchangeCodeChallenge status expiresAt)
      .done
  | .consumeMobileOauthHandoff handoffId now =>
    match s.handoffs handoffId with
    | none => s
    | some row =>
      (s.putHandoff handoffId { row with consumedAt := some now }).finish i
        (.consumeMobileOauthHandoff handoffId now) .done
  | .exchangeMobileCode _ => s

/-- `consumed_code`: the code of the snapshot is locked, once it can be, and checked again. -/
def State.lockLoginCode (s : State) (i : Nat) (exchange : Exchange) (code : Option LoginCode) :
    State :=
  if code.any (LoginCode.isOpen exchange.now) then
    if s.codeFree L (exchange.codeHash L) then
      if (s.codes (exchange.codeHash L)).any (LoginCode.isOpen exchange.now) then
        s.go i (.consuming exchange)
      else s.finish i (.exchangeMobileCode exchange) .refused
    else s
  else s.finish i (.exchangeMobileCode exchange) .refused

/-- `consumed_handoff`, and the commit of both rows. -/
def State.consume (s : State) (i : Nat) (exchange : Exchange) : State :=
  match s.codes (exchange.codeHash L), s.handoffs exchange.handoffId with
  | some code, some handoff =>
    let written := (s.putCode (exchange.codeHash L)
        { code with consumedAt := some exchange.now }).putHandoff exchange.handoffId
      { handoff with consumedAt := some exchange.now }
    { written.go i (.issuing exchange handoff.creation) with
      consumptions := ⟨i, exchange, handoff.creation⟩ :: s.consumptions }
  | _, _ => s

/-- `get_user` and `issue_session`, after the commit; `access` is whether there is the user and
has access. -/
def State.issue (s : State) (i : Nat) (exchange : Exchange) (creation : Nat) (access : Bool) :
    State :=
  let ended := s.go i (.finished (.exchangeMobileCode exchange) .consumed)
  if access then { ended with sessions := ⟨i, exchange, creation⟩ :: s.sessions } else ended

def State.advance (s : State) (i : Nat) (access : Bool) : Phase → State
  | .begun operation => s.beginStatement L i operation
  | .scanned operation handoff code => s.scan L i handoff code operation
  | .writing operation => s.write L i operation
  | .eligible exchange code => s.lockLoginCode L i exchange code
  | .consuming exchange => s.consume L i exchange
  | .issuing exchange creation => s.issue i exchange creation access
  | .finished _ _ => s

/-- A call whose connection is lost. What it has not committed is rolled back. -/
def State.lose (s : State) (i : Nat) : Phase → State
  | .begun operation => s.finish i operation .failed
  | .scanned operation _ _ => s.finish i operation .failed
  | .writing operation => s.finish i operation .failed
  | .eligible exchange _ => s.finish i (.exchangeMobileCode exchange) .failed
  | .consuming exchange => s.finish i (.exchangeMobileCode exchange) .failed
  | .issuing exchange _ => s.finish i (.exchangeMobileCode exchange) .consumed
  | .finished _ _ => s

inductive Event where
  | call (operation : Operation)
  | advance (i : Nat) (access : Bool)
  | lose (i : Nat)

def step (s : State) : Event → State
  | .call operation => { s with calls := s.calls ++ [.begun operation] }
  | .advance i access =>
    match s.calls[i]? with
    | none => s
    | some phase => s.advance L i access phase
  | .lose i =>
    match s.calls[i]? with
    | none => s
    | some phase => s.lose i phase

end Statements

end ElectronicMail.Logins
