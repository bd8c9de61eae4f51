import Mathlib.Data.List.DropRight
import TwakeKickstart.IdentityServer.Invitation.Handler
import TwakeKickstart.Library.Substitution
import TwakeKickstart.Library.Url

namespace TwakeKickstart

open Library

/-! The mails and the short messages that are made from templates. -/

/-- `text.replace(/placeholder/g, value)` with one pair after the other. -/
def replaceEach (pairs : List (String × String)) (text : String) : String :=
  pairs.foldl
    (fun text pair => String.ofList
      (Template.substitute pair.1.toList pair.2.toList text.toList))
    text

section ReplaceEach

theorem replaceEach_append (front back : List (String × String))
    (text : String) :
    replaceEach back (replaceEach front text) =
      replaceEach (front ++ back) text :=
  List.foldl_append.symm

theorem replaceEach_eq_render {pairs : List (String × String)}
    {replacements : List Template.Replacement}
    (h : pairs.map (fun pair => (pair.1.toList, pair.2.toList)) =
      replacements.map fun step => (step.placeholder, step.text))
    (text : String) :
    replaceEach pairs text =
      String.ofList (Template.render replacements text.toList) := by
  induction pairs generalizing replacements text with
  | nil =>
      cases replacements with
      | nil => exact String.ofList_toList.symm
      | cons step rest => cases h
  | cons pair pairs ih =>
      cases replacements with
      | nil => cases h
      | cons step rest =>
          obtain ⟨hpair, hrest⟩ := List.cons.inj h
          obtain ⟨hplaceholder, htext⟩ := Prod.mk.inj hpair
          rw [replaceEach, List.foldl_cons, hplaceholder, htext]
          have hstep := ih hrest (String.ofList (step.apply text.toList))
          rw [String.toList_ofList] at hstep
          exact hstep

end ReplaceEach

/-- The date, and the texts that `randomString` draws. -/
structure Header where
  date : String
  multipartBoundary : String
  messageid : String

namespace TomServer

/-- An error where the template cannot be read: `readFileSync` throws. -/
def buildEmailBody (templateContent : Except String String)
    (inviter destination link sender : String) (header : Header) :
    Except String String :=
  templateContent.map (replaceEach
    [("__from__", sender),
      ("__to__", destination),
      ("__multipart_boundary__", header.multipartBoundary),
      ("__inviter_name__", inviter),
      ("__link__", link),
      ("__date__", header.date),
      ("__messageid__", header.messageid)])

def buildSmsBody (templateContent : Except String String)
    (inviter link : String) (footer : Option String) : Option String :=
  match templateContent with
  | .ok templateContent => some (replaceEach
      [("__inviter__", inviter),
        ("__invitation_link__", link),
        ("__footer__", footer.getD "")] templateContent)
  | .error _ => none

end TomServer

namespace IdentityServer

structure MailConf where
  server_name : String
  base_url : Option String
  smtp_sender : Option String

/-- `from` of the class `Mailer`. -/
def Mailer.sender (conf : MailConf) : String :=
  match conf.smtp_sender with
  | some sender =>
      if sender ≠ "" then sender else "no-reply@" ++ conf.server_name
  | none => "no-reply@" ++ conf.server_name

namespace Invitation

def buildSmsBody (template inviter link : String) : String :=
  replaceEach [("__inviter__", inviter), ("__invitation_link__", link)]
    template

def preConfigureTemplate (template : String) (conf : MailConf)
    (header : Header) : String :=
  replaceEach
    [("__from__", Mailer.sender conf),
      ("__multipart_boundary__", header.multipartBoundary)] template

def inviteLink (server senderId : String) (roomAlias : Option String) :
    String :=
  match roomAlias with
  | some roomAlias => "https://" ++ server ++ "/#/" ++ roomAlias
  | none => "https://" ++ server ++ "/#/" ++ senderId

/-- What a mail is about. -/
structure Mail where
  inviter_name : String
  sender_user_id : String
  dst : String
  room_name : String
  room_avatar : String
  room_type : String
  server_name_creating_invitation : String
  room_alias : Option String

def Mail.link (mail : Mail) : String :=
  inviteLink mail.server_name_creating_invitation mail.sender_user_id
    mail.room_alias

def mailBody (template : String) (mail : Mail) (header : Header) : String :=
  replaceEach
    [("__to__", mail.dst),
      ("__inviter_name__", mail.inviter_name),
      ("__date__", header.date),
      ("__messageid__", header.messageid),
      ("__room_name__", mail.room_name),
      ("__room_avatar__", mail.room_avatar),
      ("__room_type__", mail.room_type),
      ("__link__", mail.link)] template

end Invitation

namespace Validate.Email

def baseUrl (conf : MailConf) : String :=
  (match conf.base_url with
    | some base_url =>
        if base_url ≠ "" then
          String.ofList (base_url.toList.rdropWhile (· = '/'))
        else "https://" ++ conf.server_name
    | none => "https://" ++ conf.server_name) ++
    "/_matrix/identity/v2/validate/email/submitToken"

def preConfigureTemplate (template : String) (conf : MailConf)
    (header : Header) : String :=
  replaceEach
    [("__from__", Mailer.sender conf),
      ("__multipart_boundary__", header.multipartBoundary),
      ("__link__", baseUrl conf ++ "?__linkQuery__")] template

/-- `application/x-www-form-urlencoded`. -/
def formEncoded (text : String) : String :=
  String.ofList (text.toList.flatMap fun c =>
    if c = ' ' then ['+']
    else if c.isAlphanum || "*-._".toList.contains c then [c]
    else Url.percentEncoded c)

/-- `new URLSearchParams(entries).toString()` -/
def searchParams (entries : List (String × String)) : String :=
  "&".intercalate (entries.map fun entry =>
    formEncoded entry.1 ++ "=" ++ formEncoded entry.2)

def linkQuery (token secret sid : String) : String :=
  searchParams [("token", token), ("client_secret", secret), ("sid", sid)]

def mailBody (template dst token secret sid : String) (header : Header) :
    String :=
  replaceEach
    [("__to__", dst),
      ("__date__", header.date),
      ("__messageid__", header.messageid),
      ("__linkQuery__", linkQuery token secret sid)] template

end Validate.Email

end IdentityServer

/-! What a message is to say. -/

/-- The messages.  A mail of the identity server is made in two steps: its
template is configured when the server starts. -/
inductive Message where
  | email (inviter destination link sender : String) (header : Header)
  | sms (inviter link : String) (footer : Option String)
  | invitationSms (inviter link : String)
  | invitation (conf : IdentityServer.MailConf)
      (mail : IdentityServer.Invitation.Mail) (header : Header)
  | verification (conf : IdentityServer.MailConf)
      (dst token secret sid : String) (header : Header)

namespace Message

open IdentityServer

def rendered (template : String) : Message → Option String
  | email inviter destination link sender header =>
      (TomServer.buildEmailBody (.ok template) inviter destination link sender
        header).toOption
  | sms inviter link footer =>
      TomServer.buildSmsBody (.ok template) inviter link footer
  | invitationSms inviter link =>
      some (Invitation.buildSmsBody template inviter link)
  | invitation conf mail header =>
      some (Invitation.mailBody
        (Invitation.preConfigureTemplate template conf header) mail header)
  | verification conf dst token secret sid header =>
      some (Validate.Email.mailBody
        (Validate.Email.preConfigureTemplate template conf header) dst token
        secret sid header)

/-- What each placeholder stands for. -/
def values : Message → List (String × String)
  | email inviter destination link sender header =>
      [("__from__", sender),
        ("__to__", destination),
        ("__multipart_boundary__", header.multipartBoundary),
        ("__inviter_name__", inviter),
        ("__link__", link),
        ("__date__", header.date),
        ("__messageid__", header.messageid)]
  | sms inviter link footer =>
      [("__inviter__", inviter),
        ("__invitation_link__", link),
        ("__footer__", footer.getD "")]
  | invitationSms inviter link =>
      [("__inviter__", inviter), ("__invitation_link__", link)]
  | invitation conf mail header =>
      [("__from__", Mailer.sender conf),
        ("__multipart_boundary__", header.multipartBoundary),
        ("__to__", mail.dst),
        ("__inviter_name__", mail.inviter_name),
        ("__date__", header.date),
        ("__messageid__", header.messageid),
        ("__room_name__", mail.room_name),
        ("__room_avatar__", mail.room_avatar),
        ("__room_type__", mail.room_type),
        ("__link__", mail.link)]
  | verification conf dst token secret sid header =>
      [("__from__", Mailer.sender conf),
        ("__multipart_boundary__", header.multipartBoundary),
        ("__link__", Validate.Email.baseUrl conf ++ "?" ++
          Validate.Email.linkQuery token secret sid),
        ("__to__", dst),
        ("__date__", header.date),
        ("__messageid__", header.messageid),
        ("__linkQuery__", Validate.Email.linkQuery token secret sid)]

def texts (message : Message) : List (List Char × List Char) :=
  message.values.map fun entry => (entry.1.toList, entry.2.toList)

def placeholders (message : Message) : List (List Char) :=
  message.texts.map Prod.fst

def pieces (message : Message) (template : String) : List Template.Piece :=
  Template.scan message.placeholders template.toList

/-- The link of a verification mail is itself a template. -/
def linkTemplate (conf : MailConf) : List Template.Piece :=
  (Validate.Email.baseUrl conf ++ "?").toList.map .char ++
    [.hole "__linkQuery__".toList]

def literals (message : Message) : List Template.Replacement :=
  message.texts.map fun entry => .literal entry.1 entry.2

/-- The replacements in their order. -/
def replacements (message : Message) : List Template.Replacement :=
  match message with
  | verification conf .. =>
      message.literals.take 2 ++
        ⟨"__link__".toList, linkTemplate conf⟩ :: message.literals.drop 3
  | _ => message.literals

/-- The message is its template with every placeholder replaced by its value at
the same time, no value is searched for placeholders, and of no value is a
character interpreted. -/
structure Faithful (message : Message) (template : String) : Prop where
  simultaneous : message.rendered template =
    some (String.ofList
      (Template.fill message.texts (message.pieces template)))
  steps : Template.FaithfulSteps message.replacements template.toList
    (message.pieces template)

theorem fill_linkTemplate (conf : MailConf)
    (values : List (List Char × List Char)) :
    Template.fill values (linkTemplate conf) =
      (Validate.Email.baseUrl conf ++ "?").toList ++
        (values.lookup "__linkQuery__".toList).getD
          "__linkQuery__".toList := by
  have hchars := Template.fill_chars values
    (Validate.Email.baseUrl conf ++ "?").toList
  rw [Template.fill] at hchars
  rw [linkTemplate, Template.fill, List.flatMap_append, hchars,
    List.flatMap_singleton, Template.Piece.fill]

theorem pairs_literals (message : Message) :
    (message.values.map fun pair => (pair.1.toList, pair.2.toList)) =
      message.literals.map fun step => (step.placeholder, step.text) := by
  rw [literals, texts, List.map_map, List.map_map]
  apply List.map_congr_left
  intro pair _
  simp

theorem values_replacements (message : Message) :
    Template.values message.replacements = message.texts := by
  cases message with
  | verification conf dst token secret sid header =>
      let later := (verification conf dst token secret sid header).texts.drop 3
      have hlater : Template.values
          (later.map fun entry => .literal entry.1 entry.2) = later :=
        Template.values_literal later
      have hquery : later.lookup "__linkQuery__".toList =
          some (Validate.Email.linkQuery token secret sid).toList := by
        simp [later, texts, values, List.lookup_cons]
      have hlink : Template.spelled (Template.putEach
          (later.map fun entry => .literal entry.1 entry.2)
          (linkTemplate conf)) =
          (Validate.Email.baseUrl conf ++ "?" ++
            Validate.Email.linkQuery token secret sid).toList := by
        rw [Template.spelled_putEach, hlater, fill_linkTemplate, hquery,
          Option.getD_some, ← String.toList_append]
      change Template.values (.literal _ _ :: .literal _ _ :: ⟨_, _⟩ ::
        later.map fun entry => .literal entry.1 entry.2) = _
      rw [Template.values_cons_literal, Template.values_cons_literal,
        Template.values, hlink, hlater]
      rfl
  | _ => exact Template.values_literal _

theorem rendered_eq_render (message : Message) (template : String) :
    message.rendered template =
      some (String.ofList
        (Template.render message.replacements template.toList)) := by
  cases message with
  | verification conf dst token secret sid header =>
      rw [rendered, Validate.Email.mailBody,
        Validate.Email.preConfigureTemplate, replaceEach_append]
      apply congrArg some
      apply replaceEach_eq_render
      let message := verification conf dst token secret sid header
      have hlink : (Validate.Email.baseUrl conf ++ "?__linkQuery__").toList =
          Template.spelled (linkTemplate conf) := by
        rw [Template.spelled, fill_linkTemplate]
        simp
      have hreplacements :
          (message.replacements.map fun step => (step.placeholder, step.text)) =
            ((message.literals.map fun step =>
                (step.placeholder, step.text)).take 2 ++
              ("__link__".toList, Template.spelled (linkTemplate conf)) ::
                (message.literals.map fun step =>
                  (step.placeholder, step.text)).drop 3) := rfl
      rw [hreplacements, ← pairs_literals, ← hlink]
      rfl
  | invitation conf mail header =>
      rw [rendered, Invitation.mailBody, Invitation.preConfigureTemplate,
        replaceEach_append]
      apply congrArg some
      exact replaceEach_eq_render
        (invitation conf mail header).pairs_literals template
  | email inviter destination link sender header =>
      apply congrArg some
      exact replaceEach_eq_render
        (email inviter destination link sender header).pairs_literals template
  | sms inviter link footer =>
      apply congrArg some
      exact replaceEach_eq_render
        (sms inviter link footer).pairs_literals template
  | invitationSms inviter link =>
      apply congrArg some
      exact replaceEach_eq_render
        (invitationSms inviter link).pairs_literals template

theorem nil_not_mem_placeholders (message : Message) :
    [] ∉ message.placeholders := by
  cases message <;> simp [placeholders, texts, values]

/-- A message is its template filled in this way exactly when every placeholder,
at its turn, stands only where the template has it, and no value that is put in
has a dollar before `$`, `&`, a backtick or an apostrophe. -/
theorem rendered_faithfully_iff (message : Message) (template : String) :
    message.Faithful template ↔
      Template.Separated message.replacements (message.pieces template) := by
  have hrender := Template.render_iff message.replacements
    message.nil_not_mem_placeholders template.toList
  rw [values_replacements] at hrender
  rw [pieces, ← hrender]
  constructor
  · intro faithful
    have heq := Option.some.inj
      ((message.rendered_eq_render template).symm.trans faithful.simultaneous)
    exact ⟨String.ofList_injective heq, faithful.steps⟩
  · intro h
    refine ⟨?_, h.2⟩
    rw [rendered_eq_render, h.1]
    rfl

/-- A name that is a placeholder, and one with a dollar in it. -/
theorem inviter_altered :
    (sms "__footer__" "https://chat.twake.app" none).rendered
        "From __inviter__. __footer__" ≠
      some (String.ofList (Template.fill
        (sms "__footer__" "https://chat.twake.app" none).texts
        ((sms "__footer__" "https://chat.twake.app" none).pieces
          "From __inviter__. __footer__"))) ∧
    (sms "US$$" "https://chat.twake.app" none).rendered "From __inviter__." ≠
      some (String.ofList (Template.fill
        (sms "US$$" "https://chat.twake.app" none).texts
        ((sms "US$$" "https://chat.twake.app" none).pieces
          "From __inviter__."))) := by
  decide +kernel

example :
    Template.Separated (sms "Alice" "https://chat.twake.app" none).replacements
      ((sms "Alice" "https://chat.twake.app" none).pieces
        "__inviter__: __invitation_link__") := by
  decide +kernel

end Message

end TwakeKickstart
