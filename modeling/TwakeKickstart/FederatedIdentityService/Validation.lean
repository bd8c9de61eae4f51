import TwakeKickstart.Utils.Errors
import TwakeKickstart.FederatedIdentityService.Db

namespace TwakeKickstart.FederatedIdentityService

open Library Utils IdentityServer

/-! The validators of a request body and the errors they answer with. -/

/-- A check gives the message of its error; `none` when it passes. -/
abbrev Check := JsValue → Option String

def invalidValue : String := "Invalid value"

def existing : Check
  | .undefined => some invalidValue
  | _ => none

def isString : Check
  | .str _ => none
  | _ => some invalidValue

def isArray : Check
  | .arr _ => none
  | _ => some invalidValue

def isObject : Check
  | .obj _ => none
  | _ => some invalidValue

/-- The checks of one property, in the order in which they are made. -/
structure ValidationChain where
  path : String
  checks : List Check

def commonValidators : List ValidationChain :=
  [⟨"algorithm", [existing, isString]⟩, ⟨"pepper", [existing, isString]⟩]

def stringItem? : JsValue → Option String
  | .str s => some s
  | _ => none

def stringArray? : JsValue → Option (List String)
  | .arr items => items.mapM stringItem?
  | _ => none

theorem stringArray?_strings (texts : List String) :
    stringArray? (.strings texts) = some texts := by
  change (texts.map JsValue.str).mapM stringItem? = some texts
  induction texts with
  | nil => rfl
  | cons text rest ih =>
      rw [List.map_cons, List.mapM_cons, ih]
      rfl

def checkAddresses (hashesLimit : Nat) : Check
  | .arr items =>
      if items.any fun item => (stringItem? item).isNone then
        some "One of the address is not a string"
      else if items.length > hashesLimit then
        some s!"Adresses limit of {hashesLimit} exceeded"
      else none
  -- the call of a missing method throws, after the check that already failed
  | _ => some invalidValue

def lookupValidator (hashesLimit : Nat) : ValidationChain where
  path := "addresses"
  checks := [existing, isArray, checkAddresses hashesLimit]

def checkMappings : Check
  | .obj fields =>
      if fields.length > 1 then some "Only one server address is allowed"
      else if fields.any fun entry => (stringArray? entry.2).isNone then
        some "Mappings object values are not string arrays"
      else none
  | _ => some invalidValue

def lookupsValidator : List ValidationChain :=
  [⟨"pepper", [existing, isString]⟩,
    ⟨"mappings", [existing, isObject, checkMappings]⟩]

def property (body : JsValue) (name : String) : JsValue :=
  (body.property name).getD .undefined

namespace ValidationChain

def firstError (chain : ValidationChain) (body : JsValue) : Option String :=
  chain.checks.findSome? fun check => check (property body chain.path)

end ValidationChain

/-- The first error of each property. -/
def validationErrors : List ValidationChain → JsValue →
    List (String × String)
  | [], _ => []
  | chain :: rest, body =>
      match chain.firstError body with
      | none => validationErrors rest body
      | some message =>
          (chain.path, message) ::
            (validationErrors rest body).filter (·.1 ≠ chain.path)

def validationMessage (errors : List (String × String)) : String :=
  ", ".intercalate (errors.map fun (path, message) =>
    s!"Error field: {message} (property: {path})")

/-- What `errorMiddleware` answers for a `FederatedIdentityServiceError` with a
code. -/
def replyError (status : Nat) (code : ErrCode) (message : String) :
    FdProcedure :=
  reply status (errMsg code (.str message))

def validationErrorHandler (chains : List ValidationChain) (body : JsValue)
    (next : FdProcedure) : FdProcedure :=
  match validationErrors chains body with
  | [] => next
  | errors => replyError 400 .invalidParam (validationMessage errors)

def Valid (chains : List ValidationChain) (body : JsValue) : Prop :=
  ∀ chain ∈ chains, ∀ check ∈ chain.checks,
    check (property body chain.path) = none

theorem firstError_eq_none {chain : ValidationChain} {body : JsValue} :
    chain.firstError body = none ↔
      ∀ check ∈ chain.checks, check (property body chain.path) = none := by
  rw [ValidationChain.firstError, List.findSome?_eq_none_iff]

theorem validationErrors_eq_nil {chains : List ValidationChain}
    {body : JsValue} :
    validationErrors chains body = [] ↔ Valid chains body := by
  induction chains with
  | nil => simp [validationErrors, Valid]
  | cons chain rest ih =>
      have hhead := @firstError_eq_none chain body
      unfold validationErrors Valid
      rw [List.forall_mem_cons, ← hhead]
      cases chain.firstError body with
      | none =>
          rw [eq_self, true_and]
          exact ih
      | some message => simp

theorem validationErrorHandler_valid {chains : List ValidationChain}
    {body : JsValue} (next : FdProcedure) (valid : Valid chains body) :
    validationErrorHandler chains body next = next := by
  unfold validationErrorHandler
  rw [validationErrors_eq_nil.mpr valid]

end TwakeKickstart.FederatedIdentityService
