import Mathlib.Data.List.Basic

/-!
# Failures of the Google client

`ServiceError` are the exceptions that reach the code around a Google call, as far
as that code tells them apart, and `safeGoogleError` is the text it stores for
them.
-/

namespace ElectronicMail.Google

/-- The exceptions a caller of Google distinguishes: missing credentials, an
`HttpError` with its status, the user-mail guard, a `TimeoutError`,
`ConnectionError` or `OSError`, and any other exception. -/
inductive ServiceError where
  | credentialsUnavailable
  | http (status : Option Int)
  | userMailWorkBlocked
  | connection
  | other
  deriving DecidableEq

def externalErrorStatus : ServiceError → Option Int
  | .http status => status
  | _ => none

/-- `{401, 403}`. -/
def isAuthStatus (status : Option Int) : Bool :=
  status = some 401 || status = some 403

/-- The tail of `safe_google_error` for a status that is neither 401 nor 403. -/
def safeStatusError (operation : String) (connection : Bool) (status : Option Int) : String :=
  if status = some 429 then "Google " ++ operation ++ " is temporarily rate limited."
  else if status.any (fun n => decide (500 ≤ n)) || connection then
    "Google " ++ operation ++ " is temporarily unavailable."
  else "Google " ++ operation ++ " failed."

def safeGoogleError (exc : ServiceError) (operation : String) : String :=
  match exc with
  | .credentialsUnavailable =>
    "Google authorization expired or was revoked. Please sign in again."
  | .http status =>
    if isAuthStatus status then
      "Google authorization expired or lacks permission. Please sign in again."
    else safeStatusError operation false status
  | .connection => safeStatusError operation true none
  | .userMailWorkBlocked => safeStatusError operation false none
  | .other => safeStatusError operation false none

end ElectronicMail.Google
