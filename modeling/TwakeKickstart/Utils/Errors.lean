import TwakeKickstart.Library.Js

namespace TwakeKickstart.Utils

open Library

/-! The error bodies of the Matrix API, for the codes that the modelled
handlers use. -/

inductive ErrCode where
  | unAuthorized
  | missingParams
  | invalidParam
  | sessionNotValidated
  | noValidSession
  | invalidEmail
  | termsNotSigned
  | unknown
  | unrecognized
  | invalidUsername
  | unknownToken
  | notFound
  deriving DecidableEq

def errCodes : ErrCode → String
  | .unAuthorized => "M_UNAUTHORIZED"
  | .missingParams => "M_MISSING_PARAMS"
  | .invalidParam => "M_INVALID_PARAM"
  | .sessionNotValidated => "M_SESSION_NOT_VALIDATED"
  | .noValidSession => "M_NO_VALID_SESSION"
  | .invalidEmail => "M_INVALID_EMAIL"
  | .termsNotSigned => "M_TERMS_NOT_SIGNED"
  | .unknown => "M_UNKNOWN"
  | .unrecognized => "M_UNRECOGNIZED"
  | .invalidUsername => "M_INVALID_USERNAME"
  | .unknownToken => "M_UNKNOWN_TOKEN"
  | .notFound => "M_NOT_FOUND"

def capitalized (word : List Char) : String :=
  match word.map Char.toLower with
  | [] => ""
  | first :: rest => String.ofList (first.toUpper :: rest)

def defaultMsg (s : String) : String :=
  let body :=
    if "M_".toList <+: s.toList then s.toList.drop 2 else s.toList
  " ".intercalate ((body.splitOn '_').map capitalized)

def errMsg (code : ErrCode) (explanation : JsValue := .undefined) : JsValue :=
  .obj [("errcode", .str (errCodes code)),
    ("error",
      if explanation.isNullish then .str (defaultMsg (errCodes code))
      else explanation)]

/-- An `Error` given as explanation: it has no field that is serialised. -/
def errorObject : JsValue := .obj []

end TwakeKickstart.Utils
