import TwakeKickstart.Library.Regex
import TwakeKickstart.Utils.Errors
import TwakeKickstart.IdentityServer.Effects

namespace TwakeKickstart.IdentityServer

open Library Utils

/-! A request as the handlers see it, and the two helpers that give them its
body. -/

/-- `body` is the decoded content; `none` when decoding throws. -/
structure Request where
  method : String := "POST"
  authorization : Option String := none
  query : JsObject := []
  body : Option JsValue := none

/-- The content of a token row, as its creators serialise it. -/
def tokenContent (sub : JsValue) (epoch : Nat) : JsValue :=
  .obj [("sub", sub), ("epoch", .num epoch)]

def jsonContent (req : Request) (callback : JsValue → Procedure) :
    Procedure :=
  match req.body with
  | none => reply 400 (errMsg .unknown errorObject)
  | some obj => callback obj

-- `none` when the content is `null`: the property access throws.
def missingParameters :
    List (String × Bool) → JsValue → Option (List String)
  | [], _ => some []
  | (key, required) :: rest, content =>
      if required then
        (content.property key).bind fun value =>
          (missingParameters rest content).map fun missing =>
            if value.isNullish then key :: missing else missing
      else missingParameters rest content

def validateParameters (desc : List (String × Bool)) (content : JsValue)
    (callback : Procedure) : Procedure :=
  match missingParameters desc content with
  | none => .done
  | some [] => callback
  | some missing =>
      reply 400 (errMsg .missingParams
        (.str ("Missing parameters " ++ ", ".intercalate missing)))

def field (content : JsValue) (key : String) : JsValue :=
  (content.property key).getD .undefined

/-! The check of a client secret, which several handlers make. -/

def isSecretChar (c : Char) : Bool :=
  c.isAlphanum || ".=_-".toList.contains c

def clientSecretRe : Regex := .run isSecretChar 6 (some 255)

/-- `regex.test(value)`, which converts its argument to a string; `none` when
the conversion throws. -/
def testValue (expression : Regex) : JsValue → Option Bool
  | .undefined => some (expression.test "undefined")
  | .null => some (expression.test "null")
  | value => value.text?.map expression.test

/-- One link of an `if … else if` chain of checks. -/
def refuseUnless (accepted : Option Bool) (status : Nat) (body : JsValue)
    (rest : Procedure) : Procedure :=
  match accepted with
  | none => .done
  | some false => reply status body
  | some true => rest

/-- The content that reaches a handler behind both helpers. -/
def acceptedBody (schema : List (String × Bool)) (req : Request) :
    Option JsValue :=
  req.body.filter fun content => missingParameters schema content == some []

theorem serve_body (env : Environment) (now : Nat) (world : World)
    (schema : List (String × Bool)) (req : Request)
    (next : JsValue → Procedure) :
    (∃ content, acceptedBody schema req = some content ∧
      serve env now (jsonContent req fun content =>
        validateParameters schema content (next content)) world =
          serve env now (next content) world) ∨
    (acceptedBody schema req = none ∧ ∃ sent : List (Nat × JsValue),
      (∀ answer ∈ sent, answer.1 = 400) ∧
      serve env now (jsonContent req fun content =>
        validateParameters schema content (next content)) world =
          { world with sent := world.sent ++ sent }) := by
  unfold acceptedBody jsonContent validateParameters
  cases req.body with
  | none => exact .inr ⟨rfl, [_], by simp, rfl⟩
  | some content =>
      cases hmissing : missingParameters schema content with
      | none =>
          refine .inr ⟨by simp [hmissing], [], by simp, ?_⟩
          simp [hmissing]
      | some missing =>
          cases missing with
          | nil =>
              refine .inl ⟨content, by simp [hmissing], ?_⟩
              simp only [hmissing]
          | cons key rest =>
              refine .inr ⟨by simp [hmissing], ?_⟩
              simp only [hmissing]
              exact ⟨[_], by simp, rfl⟩

theorem field_present {desc : List (String × Bool)} {content : JsValue}
    {key : String} (accepted : missingParameters desc content = some [])
    (required : (key, true) ∈ desc) :
    (field content key).isNullish = false := by
  induction desc with
  | nil => cases required
  | cons entry rest ih =>
      obtain ⟨name, isRequired⟩ := entry
      unfold missingParameters at accepted
      cases isRequired with
      | false =>
          rcases List.mem_cons.mp required with hhead | htail
          · cases hhead
          · exact ih accepted htail
      | true =>
          simp only [if_true, Option.bind_eq_some_iff, Option.map_eq_some_iff]
            at accepted
          obtain ⟨value, hvalue, missing, hmissing, hnone⟩ := accepted
          cases hnullish : value.isNullish with
          | true => simp [hnullish] at hnone
          | false =>
              rw [hnullish, if_neg (by simp)] at hnone
              subst hnone
              rcases List.mem_cons.mp required with hhead | htail
              · obtain ⟨rfl, _⟩ := Prod.mk.inj hhead
                rw [field, hvalue]
                exact hnullish
              · exact ih hmissing htail

theorem missingParameters_of_acceptedBody {schema : List (String × Bool)}
    {req : Request} {content : JsValue}
    (h : acceptedBody schema req = some content) :
    missingParameters schema content = some [] := by
  have hfilter := (Option.filter_eq_some_iff.mp h).2
  simpa using hfilter

theorem testValue_true {expression : Regex} {value : JsValue}
    (present : value.isNullish = false)
    (h : testValue expression value = some true) :
    ∃ text, value.text? = some text ∧ expression.test text = true := by
  have htest : value.text?.map expression.test = some true := by
    cases value with
    | undefined => cases present
    | null => cases present
    | bool b => exact h
    | num n => exact h
    | str s => exact h
    | arr items => exact h
    | obj fields => exact h
  exact Option.map_eq_some_iff.mp htest

theorem testValue_str (expression : Regex) (s : String) :
    testValue expression (.str s) = some (expression.test s) := by
  simp [testValue]

end TwakeKickstart.IdentityServer
