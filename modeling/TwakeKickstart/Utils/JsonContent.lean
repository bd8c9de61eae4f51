import TwakeKickstart.Library.Utf8
import TwakeKickstart.Utils.Errors

namespace TwakeKickstart.Utils.JsonContent

open Library

/-! `jsonContent`: the body of a request, from the pieces in which it arrives. -/

/-- `JSON.parse`, which throws on some texts, and `querystring.parse`. -/
structure Decoders where
  json : String → Option JsValue
  querystring : String → JsValue

/-- What follows the pieces: the end of the stream, an error, or nothing when
the stream had been read before. -/
inductive Finish where
  | ended
  | failed (message : String)
  | silent

/-- `body` is what a body parser left; the pieces are those that still arrive. -/
structure IncomingMessage where
  contentType : Option String
  body : JsValue := .undefined
  chunks : List (List UInt8)
  finish : Finish

structure Progress where
  content : JsValue := .str ""
  accept : Bool := true
  callbacks : List JsValue := []
  errors : List JsValue := []

def Progress.setContent (progress : Progress) (content : String) : Progress :=
  { progress with content := .str content }

def isUrlencoded (contentType : Option String) : Bool :=
  contentType.any fun type =>
    "application/x-www-form-urlencoded".toList.isPrefixOf type.toList

-- `none` when `JSON.parse` throws.
def decoded (decoders : Decoders) (contentType : Option String) :
    JsValue → Option JsValue
  | .str content =>
      if isUrlencoded contentType then some (decoders.querystring content)
      else decoders.json content
  | content => some content

def onEnd (decoders : Decoders) (contentType : Option String)
    (progress : Progress) : Progress :=
  match decoded decoders contentType progress.content with
  | none =>
      { progress with
        errors := progress.errors ++ [errMsg .unknown errorObject]
        accept := false }
  | some obj =>
      if progress.accept then
        { progress with callbacks := progress.callbacks ++ [obj] }
      else progress

/-- A piece is converted to a text by itself and appended.  `none` when the
conversion of the content throws, which ends the process. -/
def onData (progress : Progress) (chunk : List UInt8) : Option Progress :=
  progress.content.text?.map fun content =>
    progress.setContent (content ++ String.ofList (Utf8.decode chunk))

def onError (message : String) (progress : Progress) : Progress :=
  { progress with
    errors := progress.errors ++ [errMsg .unknown (.str message)]
    accept := false }

def onFinish (decoders : Decoders) (req : IncomingMessage)
    (progress : Progress) : Progress :=
  match req.finish with
  | .ended => onEnd decoders req.contentType progress
  | .failed message => onError message progress
  | .silent => progress

def attached (decoders : Decoders) (req : IncomingMessage) : Progress :=
  if req.body.truthy then
    onEnd decoders req.contentType { content := req.body }
  else {}

def jsonContent (decoders : Decoders) (req : IncomingMessage) : Progress :=
  match req.chunks.foldlM onData (attached decoders req) with
  | none => attached decoders req
  | some progress => onFinish decoders req progress

/-! What the function owes a request. -/

def text (chunks : List (List UInt8)) : JsValue :=
  .str (String.ofList (Utf8.decode chunks.flatten))

structure Exact (decoders : Decoders) (req : IncomingMessage) : Prop where
  callback_once : (jsonContent decoders req).callbacks.length ≤ 1
  error_once : (jsonContent decoders req).errors.length ≤ 1
  not_both : (jsonContent decoders req).callbacks = [] ∨
    (jsonContent decoders req).errors = []
  whole : req.body.truthy = false →
    ∀ obj ∈ (jsonContent decoders req).callbacks,
      decoded decoders req.contentType (text req.chunks) = some obj
  delivered : req.body.truthy = false → req.finish = .ended →
    (jsonContent decoders req).callbacks =
      (decoded decoders req.contentType (text req.chunks)).toList

/-- A body that was parsed before comes with a stream that has been read, and
the pieces of any other end between characters. -/
structure Undisturbed (req : IncomingMessage) : Prop where
  parsed : req.body.truthy = true →
    req.finish = .silent ∨ req.chunks ≠ [] ∧ req.body.text? = none
  whole : req.body.truthy = false → req.finish = .ended →
    Utf8.Unsplit req.chunks

section Reading

variable {decoders : Decoders} {req : IncomingMessage}

theorem foldlM_setContent (progress : Progress) (content : String)
    (chunks : List (List UInt8)) :
    chunks.foldlM onData (progress.setContent content) =
      some (progress.setContent
        (content ++ String.ofList (chunks.flatMap Utf8.decode))) := by
  induction chunks generalizing content with
  | nil => simp
  | cons chunk rest ih =>
      have hstep : onData (progress.setContent content) chunk =
          some (progress.setContent
            (content ++ String.ofList (Utf8.decode chunk))) := by
        simp [onData, Progress.setContent]
      rw [List.foldlM_cons, hstep]
      change rest.foldlM onData (progress.setContent _) = _
      rw [ih, List.flatMap_cons, String.ofList_append, String.append_assoc]

theorem foldlM_onData (progress : Progress) (chunk : List UInt8)
    (rest : List (List UInt8)) :
    (chunk :: rest).foldlM onData progress =
      progress.content.text?.map fun content => progress.setContent
        (content ++ String.ofList ((chunk :: rest).flatMap Utf8.decode)) := by
  rw [List.foldlM_cons, onData]
  cases progress.content.text? with
  | none => rfl
  | some content =>
      change rest.foldlM onData (progress.setContent _) = _
      rw [foldlM_setContent, List.flatMap_cons, String.ofList_append,
        String.append_assoc]
      rfl

theorem jsonContent_unparsed (unparsed : req.body.truthy = false) :
    jsonContent decoders req = onFinish decoders req (Progress.setContent {}
      (String.ofList (req.chunks.flatMap Utf8.decode))) := by
  have hempty : attached decoders req = Progress.setContent {} "" := by
    unfold attached
    rw [unparsed]
    rfl
  unfold jsonContent
  rw [hempty, foldlM_setContent, String.empty_append]

theorem foldlM_onData_frame {progress after : Progress}
    {chunks : List (List UInt8)}
    (h : chunks.foldlM onData progress = some after) :
    after.callbacks = progress.callbacks ∧ after.errors = progress.errors ∧
      after.accept = progress.accept := by
  cases chunks with
  | nil =>
      cases h
      exact ⟨rfl, rfl, rfl⟩
  | cons chunk rest =>
      rw [foldlM_onData] at h
      obtain ⟨content, _, rfl⟩ := Option.map_eq_some_iff.mp h
      exact ⟨rfl, rfl, rfl⟩

theorem attached_cases (parsed : req.body.truthy = true) :
    (∃ obj, decoded decoders req.contentType req.body = some obj ∧
      attached decoders req = ⟨req.body, true, [obj], []⟩) ∨
    (decoded decoders req.contentType req.body = none ∧
      attached decoders req =
        ⟨req.body, false, [], [errMsg .unknown errorObject]⟩) := by
  unfold attached onEnd
  rw [parsed, if_pos rfl]
  simp only
  cases decoded decoders req.contentType req.body with
  | none => exact .inr ⟨rfl, rfl⟩
  | some obj => exact .inl ⟨obj, rfl, rfl⟩

theorem content_attached (parsed : req.body.truthy = true) :
    (attached decoders req).content = req.body := by
  rcases @attached_cases decoders req parsed with
    ⟨obj, _, hattached⟩ | ⟨_, hattached⟩
  · rw [hattached]
  · rw [hattached]

theorem jsonContent_undisturbed (parsed : req.body.truthy = true)
    (undisturbed : req.finish = .silent ∨
      req.chunks ≠ [] ∧ req.body.text? = none) :
    (jsonContent decoders req).callbacks =
        (attached decoders req).callbacks ∧
      (jsonContent decoders req).errors = (attached decoders req).errors := by
  unfold jsonContent
  cases hfold : req.chunks.foldlM onData (attached decoders req) with
  | none => exact ⟨rfl, rfl⟩
  | some progress =>
      obtain ⟨hcallbacks, herrors, _⟩ := foldlM_onData_frame hfold
      rcases undisturbed with hsilent | ⟨hchunks, htext⟩
      · simp only [onFinish, hsilent]
        exact ⟨hcallbacks, herrors⟩
      · obtain ⟨chunk, rest, hcons⟩ := List.exists_cons_of_ne_nil hchunks
        rw [hcons, foldlM_onData, content_attached parsed, htext] at hfold
        cases hfold

theorem exact_of_parsed (parsed : req.body.truthy = true)
    (undisturbed : req.finish = .silent ∨
      req.chunks ≠ [] ∧ req.body.text? = none) : Exact decoders req := by
  obtain ⟨hcallbacks, herrors⟩ :=
    @jsonContent_undisturbed decoders req parsed undisturbed
  have hparsed : req.body.truthy ≠ false := by simp [parsed]
  rcases @attached_cases decoders req parsed with
    ⟨obj, _, hattached⟩ | ⟨_, hattached⟩
  · rw [hattached] at hcallbacks herrors
    refine ⟨by rw [hcallbacks]; exact Nat.le_refl 1,
      by rw [herrors]; exact Nat.zero_le 1, .inr herrors, ?_, ?_⟩
    · exact fun h => absurd h hparsed
    · exact fun h => absurd h hparsed
  · rw [hattached] at hcallbacks herrors
    refine ⟨by rw [hcallbacks]; exact Nat.zero_le 1,
      by rw [herrors]; exact Nat.le_refl 1, .inl hcallbacks, ?_, ?_⟩
    · exact fun h => absurd h hparsed
    · exact fun h => absurd h hparsed

theorem text_of_unsplit (unsplit : Utf8.Unsplit req.chunks) :
    JsValue.str (String.ofList (req.chunks.flatMap Utf8.decode)) =
      text req.chunks := by
  rw [text, (Utf8.flatMap_decode_eq_iff req.chunks).mpr unsplit]

theorem exact_of_unparsed (unparsed : req.body.truthy = false)
    (unsplit : req.finish = .ended → Utf8.Unsplit req.chunks) :
    Exact decoders req := by
  have hrun := @jsonContent_unparsed decoders req unparsed
  cases hfinish : req.finish with
  | ended =>
      have htext := text_of_unsplit (unsplit hfinish)
      simp only [onFinish, hfinish, onEnd, Progress.setContent, htext] at hrun
      cases hdecoded : decoded decoders req.contentType (text req.chunks) with
      | none =>
          rw [hdecoded] at hrun
          refine ⟨?_, ?_, ?_, ?_, ?_⟩
          · simp [hrun]
          · simp [hrun]
          · simp [hrun]
          · simp [hrun]
          · simp [hrun, hdecoded]
      | some obj =>
          rw [hdecoded] at hrun
          refine ⟨?_, ?_, ?_, ?_, ?_⟩
          · simp [hrun]
          · simp [hrun]
          · simp [hrun]
          · simp [hrun, hdecoded]
          · simp [hrun, hdecoded]
  | failed message =>
      simp only [onFinish, hfinish, onError, Progress.setContent] at hrun
      refine ⟨?_, ?_, ?_, ?_, ?_⟩
      · simp [hrun]
      · simp [hrun]
      · simp [hrun]
      · simp [hrun]
      · simp [hfinish]
  | silent =>
      simp only [onFinish, hfinish, Progress.setContent] at hrun
      refine ⟨?_, ?_, ?_, ?_, ?_⟩
      · simp [hrun]
      · simp [hrun]
      · simp [hrun]
      · simp [hrun]
      · simp [hfinish]

end Reading

/-- Decoders that keep the text, so that the object shows what was decoded. -/
def Decoders.echo : Decoders where
  json := fun content => some (.str content)
  querystring := .str

theorem decoded_echo (contentType : Option String) (content : JsValue) :
    decoded .echo contentType content = some content := by
  cases content with
  | str content =>
      simp only [decoded, Decoders.echo]
      split
      · rfl
      · rfl
  | undefined => rfl
  | null => rfl
  | bool b => rfl
  | num n => rfl
  | arr items => rfl
  | obj fields => rfl

theorem undisturbed_of_exact {req : IncomingMessage}
    (exactly : Exact .echo req) : Undisturbed req := by
  refine ⟨?_, ?_⟩
  · intro hparsed
    by_contra hdisturbed
    rw [not_or, not_and_or] at hdisturbed
    obtain ⟨hfinish, hread⟩ := hdisturbed
    have hattached : attached .echo req =
        ⟨req.body, true, [req.body], []⟩ := by
      rcases @attached_cases .echo req hparsed with
        ⟨obj, hobj, hattached⟩ | ⟨hnone, _⟩
      · rw [decoded_echo] at hobj
        cases hobj
        exact hattached
      · rw [decoded_echo] at hnone
        cases hnone
    obtain ⟨progress, hfold⟩ : ∃ progress,
        req.chunks.foldlM onData (attached .echo req) = some progress := by
      cases hchunks : req.chunks with
      | nil => exact ⟨_, rfl⟩
      | cons chunk rest =>
          have htext : req.body.text? ≠ none :=
            hread.resolve_left fun h => h (by simp [hchunks])
          obtain ⟨content, hcontent⟩ := Option.ne_none_iff_exists'.mp htext
          rw [foldlM_onData, content_attached hparsed, hcontent]
          exact ⟨_, rfl⟩
    obtain ⟨hcallbacks, _, haccept⟩ := foldlM_onData_frame hfold
    rw [hattached] at hcallbacks haccept
    have hrun : jsonContent .echo req = onFinish .echo req progress := by
      unfold jsonContent
      rw [hfold]
    cases hfinished : req.finish with
    | ended =>
        have honce := exactly.callback_once
        rw [hrun] at honce
        simp only [onFinish, hfinished, onEnd, decoded_echo, haccept,
          if_true, hcallbacks] at honce
        exact absurd honce (by simp)
    | failed message =>
        have hboth := exactly.not_both
        rw [hrun] at hboth
        simp [onFinish, hfinished, onError, hcallbacks] at hboth
    | silent => exact hfinish hfinished
  · intro hunparsed hended
    have hdelivered := exactly.delivered hunparsed hended
    rw [jsonContent_unparsed hunparsed, decoded_echo] at hdelivered
    simp only [onFinish, hended, onEnd, Progress.setContent, decoded_echo,
      if_true, List.nil_append, Option.toList_some, List.cons.injEq, and_true,
      text, JsValue.str.injEq, String.ofList_inj] at hdelivered
    exact (Utf8.flatMap_decode_eq_iff req.chunks).mp hdelivered

/-- The body is decoded as a whole, once, whatever the decoders, exactly when
nothing disturbs the request. -/
theorem jsonContent_exact_iff (req : IncomingMessage) :
    (∀ decoders, Exact decoders req) ↔ Undisturbed req := by
  constructor
  · intro hexact
    exact undisturbed_of_exact (hexact .echo)
  · intro hundisturbed decoders
    cases hparsed : req.body.truthy with
    | true => exact exact_of_parsed hparsed (hundisturbed.parsed hparsed)
    | false => exact exact_of_unparsed hparsed (hundisturbed.whole hparsed)

/-- `JSON.parse` on string literals without escapes. -/
def Decoders.literals : Decoders where
  json := fun content =>
    match content.toList with
    | '"' :: rest =>
        if rest.getLast? = some '"' then
          some (.str (String.ofList rest.dropLast))
        else none
    | _ => none
  querystring := fun content => .obj [(content, .str "")]

/-- The literal `"é"`, cut inside its accented letter. -/
def splitLiteral : IncomingMessage where
  contentType := some "application/json"
  chunks := [[0x22, 0xC3], [0xA9, 0x22]]
  finish := .ended

theorem splitLiteral_garbled : ¬ ∀ decoders, Exact decoders splitLiteral := by
  intro h
  have hdelivered := (h .literals).delivered rfl rfl
  have hwhole : decoded .literals splitLiteral.contentType
      (text splitLiteral.chunks) = some (.str "é") := by
    rfl
  have hgarbled : (jsonContent .literals splitLiteral).callbacks =
      [.str "\uFFFD\uFFFD"] := by
    rfl
  rw [hwhole, hgarbled] at hdelivered
  simp at hdelivered

end TwakeKickstart.Utils.JsonContent
