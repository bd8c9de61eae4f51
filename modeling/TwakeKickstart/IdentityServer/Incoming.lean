import TwakeKickstart.Utils.JsonContent
import TwakeKickstart.Library.Paths
import TwakeKickstart.IdentityServer.Request

namespace TwakeKickstart.IdentityServer

open Library Utils
open Library.Program (Path path_done path_fork path_of_forkAll_singleton)

/-! A request behind the body parsers of the application. -/

/-- A parser that fills the body has read the stream.  Where none reads it,
`express.json` leaves an empty object. -/
structure Incoming where
  method : String := "POST"
  authorization : Option String := none
  query : JsObject := []
  message : JsonContent.IncomingMessage
  parsed : message.body.truthy = true →
    (message.finish = .silent ∧ ∀ content, message.body ≠ .str content) ∨
    (message.body = .obj [] ∧
      JsonContent.isUrlencoded message.contentType = false)

def Incoming.request (incoming : Incoming) : Request where
  method := incoming.method
  authorization := incoming.authorization
  query := incoming.query

/-- What `jsonContent` hands on.  A content that was parsed before comes at
once, one of the stream with its end. -/
inductive Arrival where
  | nothing
  | refused
  | content (now : Bool) (content : JsValue)
  | twice

def arrival (decoders : JsonContent.Decoders)
    (message : JsonContent.IncomingMessage) : Arrival :=
  if message.body.truthy then
    match message.finish with
    | .silent => .content true message.body
    | _ => .twice
  else
    match message.finish with
    | .silent => .nothing
    | .failed _ => .refused
    | .ended =>
        match JsonContent.decoded decoders message.contentType
          (.str (String.ofList (message.chunks.flatMap Utf8.decode))) with
        | none => .refused
        | some content => .content false content

/-- `jsonContent` with a callback that may throw.  What it throws while the
body is at hand reaches the `catch` around it; in an event of the stream nothing
catches it, and the callback itself ends. -/
def deliver (decoders : JsonContent.Decoders)
    (message : JsonContent.IncomingMessage) (throws : JsValue → Bool)
    (caught : Procedure) (callback : JsValue → Procedure) : Procedure :=
  if (JsonContent.attached decoders message).callbacks.any throws then caught
  else
    .forkAll ((JsonContent.jsonContent decoders message).errors.map (reply 400))
      (.forkAll
        ((JsonContent.jsonContent decoders message).callbacks.map callback)
        .done)

section Deliver

variable {decoders : JsonContent.Decoders}
variable {incoming : Incoming}

theorem attached_parsed
    (parsed : incoming.message.body.truthy = true) :
    JsonContent.attached decoders incoming.message =
      ⟨incoming.message.body, true, [incoming.message.body], []⟩ := by
  have hdecoded : JsonContent.decoded decoders incoming.message.contentType
      incoming.message.body = some incoming.message.body := by
    rcases incoming.parsed parsed with ⟨-, htext⟩ | ⟨hempty, -⟩
    · cases hbody : incoming.message.body with
      | str content => exact absurd hbody (htext content)
      | _ => rfl
    · rw [hempty]
      rfl
  simp [JsonContent.attached, JsonContent.onEnd, parsed, hdecoded]

theorem attached_unparsed
    (unparsed : incoming.message.body.truthy = false) :
    JsonContent.attached decoders incoming.message = {} := by
  simp [JsonContent.attached, unparsed]

theorem truthy_of_now {content : JsValue}
    (h : arrival decoders incoming.message = .content true content) :
    content.truthy = true := by
  unfold arrival at h
  split at h
  · rename_i hparsed
    split at h
    · cases h
      exact hparsed
    · cases h
  · split at h
    · cases h
    · cases h
    · split at h
      · cases h
      · cases h

/-- Where the stream of an empty object goes on, a refusal or a second, equally
empty content follows. -/
theorem jsonContent_twice
    (refuses : ∀ text, decoders.json ("[object Object]" ++ text) = none)
    (h : arrival decoders incoming.message = .twice) :
    incoming.message.body = .obj [] ∧
    ((JsonContent.jsonContent decoders incoming.message).callbacks =
        [.obj [], .obj []] ∧
      (JsonContent.jsonContent decoders incoming.message).errors = [] ∨
    (JsonContent.jsonContent decoders incoming.message).callbacks =
        [.obj []] ∧
      ∃ error, (JsonContent.jsonContent decoders incoming.message).errors =
        [error]) := by
  unfold arrival at h
  split at h
  · rename_i hparsed
    have hattached := @attached_parsed decoders incoming hparsed
    have hread : incoming.message.finish ≠ .silent := by
      intro hsilent
      rw [hsilent] at h
      cases h
    obtain ⟨hempty, htype⟩ :=
      (incoming.parsed hparsed).resolve_left fun hleft => hread hleft.1
    rw [hempty] at hattached
    refine ⟨hempty, ?_⟩
    unfold JsonContent.jsonContent
    rw [hattached]
    cases hchunks : incoming.message.chunks with
    | nil =>
        rw [List.foldlM_nil]
        cases hfinish : incoming.message.finish with
        | ended =>
            exact .inl (by simp [JsonContent.onFinish, hfinish,
              JsonContent.onEnd, JsonContent.decoded])
        | failed message =>
            exact .inr (by simp [JsonContent.onFinish, hfinish,
              JsonContent.onError])
        | silent => exact absurd hfinish hread
    | cons chunk rest =>
        have htext : (JsValue.obj []).text? = some "[object Object]" := by
          simp [JsValue.text?]
        rw [JsonContent.foldlM_onData, htext, Option.map_some]
        cases hfinish : incoming.message.finish with
        | ended =>
            exact .inr (by simp [JsonContent.onFinish, hfinish,
              JsonContent.onEnd, JsonContent.decoded, htype, refuses,
              JsonContent.Progress.setContent])
        | failed message =>
            exact .inr (by simp [JsonContent.onFinish, hfinish,
              JsonContent.onError, JsonContent.Progress.setContent])
        | silent => exact absurd hfinish hread
  · split at h
    · cases h
    · cases h
    · split at h
      · cases h
      · cases h

theorem jsonContent_parsed
    (parsed : incoming.message.body.truthy = true)
    (silent : incoming.message.finish = .silent) :
    (JsonContent.jsonContent decoders incoming.message).callbacks =
        [incoming.message.body] ∧
      (JsonContent.jsonContent decoders incoming.message).errors = [] := by
  have hrun := @JsonContent.jsonContent_undisturbed decoders incoming.message
    parsed (.inl silent)
  rw [attached_parsed parsed] at hrun
  exact hrun

/-- The paths of a delivery. -/
inductive Delivered (decoders : JsonContent.Decoders) (incoming : Incoming)
    (throws : JsValue → Bool) (caught : Procedure)
    (callback : JsValue → Procedure) (path : List (Sigma Effect.Result)) : Prop
  | nothing (arrived : arrival decoders incoming.message = .nothing)
      (silent : path = [])
  | refused (arrived : arrival decoders incoming.message = .refused)
      (body : JsValue) (refusal : Path (reply 400 body) path)
  | content (now : Bool) (content : JsValue)
      (arrived : arrival decoders incoming.message = .content now content)
      (handled : Path (if now && throws content then caught
        else callback content) path)
  | twice (arrived : arrival decoders incoming.message = .twice)
      (handled : throws (.obj []) = true ∨ ∃ first second body,
        path = first ++ second ∧
        (Path (reply 400 body) first ∨ Path (callback (.obj [])) first) ∧
        Path (callback (.obj [])) second)

theorem path_deliver {throws : JsValue → Bool} {caught : Procedure}
    {callback : JsValue → Procedure} {path : List (Sigma Effect.Result)}
    (refuses : ∀ text, decoders.json ("[object Object]" ++ text) = none)
    (h : Path (deliver decoders incoming.message throws caught callback)
      path) :
    Delivered decoders incoming throws caught callback path := by
  unfold deliver at h
  cases hparsed : incoming.message.body.truthy with
  | true =>
      rw [attached_parsed hparsed, List.any_cons, List.any_nil,
        Bool.or_false] at h
      by_cases hsilent : incoming.message.finish = .silent
      · have harrival : arrival decoders incoming.message =
            .content true incoming.message.body := by
          simp [arrival, hparsed, hsilent]
        obtain ⟨hcallbacks, herrors⟩ :=
          @jsonContent_parsed decoders incoming hparsed hsilent
        rw [hcallbacks, herrors] at h
        refine .content true incoming.message.body harrival ?_
        rw [Bool.true_and]
        split at h
        · rename_i hthrows
          rw [if_pos hthrows]
          exact h
        · rename_i hthrows
          rw [if_neg hthrows]
          exact path_of_forkAll_singleton h
      · have harrival : arrival decoders incoming.message = .twice := by
          unfold arrival
          rw [if_pos hparsed]
          split
          · rename_i hfinish
            exact absurd hfinish hsilent
          · rfl
        obtain ⟨hempty, hreplies⟩ := jsonContent_twice refuses harrival
        refine .twice harrival ?_
        rw [hempty] at h
        split at h
        · rename_i hthrows
          exact .inl hthrows
        · refine .inr ?_
          rcases hreplies with ⟨hcallbacks, herrors⟩ |
            ⟨hcallbacks, error, herrors⟩
          · rw [hcallbacks, herrors] at h
            obtain ⟨first, after, rfl, hfirst, hafter⟩ := path_fork.mp h
            exact ⟨first, after, .null, rfl, .inr hfirst,
              path_of_forkAll_singleton hafter⟩
          · rw [hcallbacks, herrors] at h
            obtain ⟨first, after, rfl, hfirst, hafter⟩ := path_fork.mp h
            exact ⟨first, after, error, rfl, .inl hfirst,
              path_of_forkAll_singleton hafter⟩
  | false =>
      have hrun := @JsonContent.jsonContent_unparsed decoders incoming.message
        hparsed
      rw [attached_unparsed hparsed] at h
      have hcaught : ¬ ({} : JsonContent.Progress).callbacks.any throws =
          true := Bool.false_ne_true
      rw [if_neg hcaught, hrun] at h
      unfold JsonContent.onFinish at h
      cases hfinish : incoming.message.finish with
      | silent =>
          rw [hfinish] at h
          exact .nothing (by simp [arrival, hparsed, hfinish])
            (path_done.mp h)
      | failed message =>
          rw [hfinish] at h
          exact .refused (by simp [arrival, hparsed, hfinish]) _
            (path_of_forkAll_singleton h)
      | ended =>
          rw [hfinish] at h
          simp only [JsonContent.onEnd, JsonContent.Progress.setContent] at h
          cases hdecoded : JsonContent.decoded decoders
              incoming.message.contentType (.str (String.ofList
                (incoming.message.chunks.flatMap Utf8.decode))) with
          | none =>
              rw [hdecoded] at h
              exact .refused (by simp [arrival, hparsed, hfinish, hdecoded]) _
                (path_of_forkAll_singleton h)
          | some content =>
              rw [hdecoded] at h
              exact .content false content
                (by simp [arrival, hparsed, hfinish, hdecoded])
                (path_of_forkAll_singleton h)

end Deliver

end TwakeKickstart.IdentityServer
