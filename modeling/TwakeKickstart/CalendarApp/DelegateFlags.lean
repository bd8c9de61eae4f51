import TwakeKickstart.CalendarApp.Delegates
import TwakeKickstart.CalendarApp.EmailAddress
import TwakeKickstart.Library.Regex
import Mathlib.Data.List.Nodup

namespace TwakeKickstart.CalendarApp

open Library

/-! The flags of delegate hosts, in an event and in the property for them. -/

structure UserAttendee where
  calAddress : String
  isDelegateHost : Bool

def UserAttendee.withDelegateHost (attendee : UserAttendee)
    (isDelegateHost : Bool) : UserAttendee :=
  { attendee with isDelegateHost }

structure CalendarEvent where
  openpassVideoconference : Option String
  attendee : List UserAttendee

/-- What the engine and the rest of the parser do with a text. -/
structure Frontend where
  toLowerCase : String → String
  safeString : String → String
  toLowerCase_ascii : ∀ text : List Char, (∀ c ∈ text, c.toNat < 128) →
    toLowerCase (String.ofList text) = String.ofList (text.map Char.toLower)
  safeString_eq : ∀ text, safeString text = text

/-- `text.replace(/^mailto:/i, '')` -/
def withoutMailto (text : String) : String :=
  if startsWithMailto text.toList then String.ofList (text.toList.drop 7)
  else text

/-- The value of `x-twake-delegate-hosts` that `makeVevent` emits. -/
def emittedDelegateHosts (event : CalendarEvent) : Option String :=
  if event.openpassVideoconference.getD "" ≠ "" then
    let delegateEmails := (event.attendee.filter (·.isDelegateHost)).map
      fun att => withoutMailto att.calAddress
    if delegateEmails.length > 0 then some (",".intercalate delegateEmails)
    else none
  else none

namespace Frontend

variable (frontend : Frontend)

def delegateHostEmails (value : String) : Option (List String) :=
  let raw := frontend.safeString value
  if raw = "" then none
  else
    some (((splitComma raw.toList).map fun e =>
      frontend.toLowerCase (String.ofList (trimWith isSpaceChar e))).filter
        (·.length > 0))

def applyDelegateHosts (delegateHostEmails : Option (List String))
    (attendee : List UserAttendee) : List UserAttendee :=
  match delegateHostEmails with
  | some emails =>
      attendee.map fun att =>
        if emails.contains (frontend.toLowerCase att.calAddress) then
          att.withDelegateHost true
        else att
  | none => attendee

end Frontend

/-! Guests with an address each, and the law of their flags. -/

structure Guest where
  scheme : List Char
  address : EmailAddress
  flagged : Bool
  scheme_eq : scheme = [] ∨ scheme.map Char.toLower = mailto

namespace Guest

def link (guest : Guest) : List Char := guest.scheme ++ guest.address.text

def attendee (guest : Guest) : UserAttendee :=
  ⟨String.ofList guest.link, guest.flagged⟩

/-- The attendee as the parser reads it, before the flags. -/
def unflagged (guest : Guest) : UserAttendee :=
  guest.attendee.withDelegateHost false

def email (guest : Guest) : String := String.ofList guest.address.text

end Guest

structure Meeting where
  meetUrl : String
  guests : List Guest
  meetUrl_ne : meetUrl ≠ ""
  distinct : (guests.map fun guest => guest.link.map Char.toLower).Nodup

namespace Meeting

def event (meeting : Meeting) : CalendarEvent :=
  ⟨some meeting.meetUrl, meeting.guests.map Guest.attendee⟩

def flagged (meeting : Meeting) : List Guest :=
  meeting.guests.filter Guest.flagged

end Meeting

/-- The flags are what they were, and the server's list is the flagged
addresses. -/
structure Survives (frontend : Frontend) (meeting : Meeting) : Prop where
  flags : frontend.applyDelegateHosts
      ((emittedDelegateHosts meeting.event).bind frontend.delegateHostEmails)
      (meeting.guests.map Guest.unflagged) = meeting.event.attendee
  delegates : ((emittedDelegateHosts meeting.event).map splitToList).getD [] =
    meeting.flagged.map Guest.email

/-! What is emitted for an address. -/

theorem not_isSpaceChar {c : Char} (printable : isPrintable c = true)
    (hblank : c ≠ ' ') : isSpaceChar c = false := by
  have hrange := of_decide_eq_true printable
  have hblank : c.toNat ≠ 32 := fun h => hblank (Char.toNat_inj.mp h)
  rw [Bool.eq_false_iff]
  intro h
  simp only [isSpaceChar, Bool.or_eq_true, Bool.and_eq_true, beq_iff_eq,
    decide_eq_true_eq, ← Char.toNat_inj, Char.le_def, UInt32.le_iff_toNat_le,
    Char.toNat_val, Char.reduceToNat] at h
  omega

theorem not_isWhitespace {c : Char} (printable : isPrintable c = true)
    (hblank : c ≠ ' ') : isWhitespace c = false := by
  have hrange := of_decide_eq_true printable
  have hblank : c.toNat ≠ 32 := fun h => hblank (Char.toNat_inj.mp h)
  rw [Bool.eq_false_iff]
  intro h
  simp only [isWhitespace, Bool.or_eq_true, Bool.and_eq_true, beq_iff_eq,
    decide_eq_true_eq, ← Char.toNat_inj, Char.le_def, UInt32.le_iff_toNat_le,
    Char.toNat_val, Char.reduceToNat] at h
  omega

namespace EmailAddress

theorem text_ne_nil (address : EmailAddress) : address.text ≠ [] := by
  intro hnil
  obtain ⟨c, hfirst, _⟩ := address.head_text
  rw [hnil] at hfirst
  cases hfirst

theorem toNat_lt (address : EmailAddress) :
    ∀ c ∈ address.text, c.toNat < 128 := by
  intro c hc
  have hrange := of_decide_eq_true (address.isPrintable_text c hc)
  omega

theorem whole (address : EmailAddress) {space : Char → Bool}
    (spaces : ∀ {c}, isPrintable c = true → c ≠ ' ' → space c = false)
    (noComma : ',' ∉ address.text) : Whole space address.text := by
  obtain ⟨c, hfirst, hc⟩ := address.head_text
  obtain ⟨d, hlast, hd⟩ := address.getLast?_text
  exact ⟨⟨c, hfirst, spaces (address.isPrintable_text c
      (List.mem_of_mem_head? hfirst)) hc⟩,
    ⟨d, hlast, spaces (address.isPrintable_text d
      (List.mem_of_getLast? hlast)) hd⟩, noComma⟩

end EmailAddress

namespace Guest

theorem withoutMailto_link (guest : Guest) :
    withoutMailto (String.ofList guest.link) = guest.email := by
  rw [withoutMailto, String.toList_ofList, link]
  obtain hscheme | hscheme := guest.scheme_eq
  · rw [hscheme, List.nil_append, guest.address.not_startsWithMailto]
    rfl
  · have hlength : guest.scheme.length = 7 := by
      rw [← List.length_map Char.toLower, hscheme]
      rfl
    have hstarts : startsWithMailto (guest.scheme ++ guest.address.text) =
        true := by
      rw [startsWithMailto, ← hlength, List.take_left, hscheme]
      exact beq_self_eq_true _
    rw [if_pos hstarts, ← hlength, List.drop_left]
    rfl

theorem toNat_lt (guest : Guest) : ∀ c ∈ guest.link, c.toNat < 128 := by
  intro c hc
  obtain hc | hc := List.mem_append.mp hc
  · obtain hscheme | hscheme := guest.scheme_eq
    · rw [hscheme] at hc
      cases hc
    · have hmem : c.toLower ∈ mailto := by
        rw [← hscheme]
        exact List.mem_map_of_mem hc
      have hlow : c.toLower.toNat < 128 := by
        revert hmem
        generalize c.toLower = d
        intro hmem
        have hall : mailto.all (fun d => d.toNat < 128) = true := by decide
        exact of_decide_eq_true (List.all_eq_true.mp hall d hmem)
      obtain hsame | ⟨_, hbound, _⟩ := toLower_cases c
      · rwa [hsame] at hlow
      · omega
  · exact guest.address.toNat_lt c hc

theorem toLowerCase_link (frontend : Frontend) (guest : Guest) :
    frontend.toLowerCase guest.attendee.calAddress =
      String.ofList (guest.link.map Char.toLower) :=
  frontend.toLowerCase_ascii guest.link guest.toNat_lt

end Guest

/-! The property of a meeting, and what is read from it. -/

/-- The link and the address of every flagged guest can be told apart. -/
def Meeting.Plain (meeting : Meeting) : Prop :=
  ∀ guest ∈ meeting.guests, guest.flagged = true →
    guest.scheme = [] ∧ ',' ∉ guest.address.text

namespace Meeting

variable (frontend : Frontend) (meeting : Meeting)

theorem emittedDelegateHosts_eq :
    emittedDelegateHosts meeting.event =
      if meeting.flagged = [] then none
      else some (",".intercalate (meeting.flagged.map Guest.email)) := by
  have hemails : (meeting.event.attendee.filter (·.isDelegateHost)).map
      (fun att => withoutMailto att.calAddress) =
        meeting.flagged.map Guest.email := by
    rw [event, List.filter_map, List.map_map, flagged]
    exact List.map_congr_left fun guest _ => guest.withoutMailto_link
  have hurl : meeting.event.openpassVideoconference.getD "" ≠ "" :=
    meeting.meetUrl_ne
  rw [emittedDelegateHosts, if_pos hurl, hemails]
  dsimp only
  rw [List.length_map]
  cases meeting.flagged with
  | nil => rfl
  | cons guest others =>
      rw [if_pos (List.length_pos_of_ne_nil (List.cons_ne_nil _ _)), if_neg (List.cons_ne_nil _ _)]

theorem toList_emails : (meeting.flagged.map Guest.email).map String.toList =
    meeting.flagged.map fun guest => guest.address.text := by
  rw [List.map_map]
  exact List.map_congr_left fun guest _ => String.toList_ofList

theorem splitComma_emails {space : Char → Bool}
    (spaces : ∀ {c}, isPrintable c = true → c ≠ ' ' → space c = false)
    (noComma : ∀ guest ∈ meeting.flagged, ',' ∉ guest.address.text)
    (nonempty : meeting.flagged ≠ []) :
    (splitComma (",".intercalate (meeting.flagged.map Guest.email)).toList).map
      (trimWith space) = meeting.flagged.map fun guest =>
        guest.address.text := by
  rw [String.toList_intercalate, toList_emails]
  apply splitComma_joined
  · exact fun h => nonempty (List.map_eq_nil_iff.mp h)
  · intro text htext
    obtain ⟨guest, hguest, rfl⟩ := List.mem_map.mp htext
    exact guest.address.whole spaces (noComma guest hguest)

theorem splitToList_emails
    (noComma : ∀ guest ∈ meeting.flagged, ',' ∉ guest.address.text) :
    ((emittedDelegateHosts meeting.event).map splitToList).getD [] =
      meeting.flagged.map Guest.email := by
  rw [emittedDelegateHosts_eq]
  split
  · rename_i hnil
    rw [hnil]
    rfl
  · rename_i hne
    have hkeep : (meeting.flagged.map fun guest =>
        guest.address.text).filter (· ≠ []) =
          meeting.flagged.map fun guest => guest.address.text := by
      rw [List.filter_eq_self]
      intro text htext
      obtain ⟨guest, _, rfl⟩ := List.mem_map.mp htext
      exact decide_eq_true guest.address.text_ne_nil
    rw [Option.map_some, Option.getD_some, splitToList,
      meeting.splitComma_emails not_isWhitespace noComma hne, hkeep,
      List.map_map]
    rfl

theorem noComma_of_delegates
    (h : ((emittedDelegateHosts meeting.event).map splitToList).getD [] =
      meeting.flagged.map Guest.email) :
    ∀ guest ∈ meeting.flagged, ',' ∉ guest.address.text := by
  intro guest hguest
  have hmem : guest.email ∈ meeting.flagged.map Guest.email :=
    List.mem_map_of_mem hguest
  rw [← h] at hmem
  cases hvalue : emittedDelegateHosts meeting.event with
  | none =>
      rw [hvalue] at hmem
      cases hmem
  | some value =>
      rw [hvalue] at hmem
      have hcomma := noComma_of_mem_splitToList hmem
      rwa [Guest.email, String.toList_ofList] at hcomma

/-- What the browser keeps of the flagged addresses. -/
def keys : List String :=
  meeting.flagged.map fun guest =>
    String.ofList (guest.address.text.map Char.toLower)

theorem delegateHostEmails_eq
    (noComma : ∀ guest ∈ meeting.flagged, ',' ∉ guest.address.text) :
    (emittedDelegateHosts meeting.event).bind frontend.delegateHostEmails =
      if meeting.flagged = [] then none else some meeting.keys := by
  rw [emittedDelegateHosts_eq]
  split
  · rfl
  rename_i hne
  have hpieces := meeting.splitComma_emails not_isSpaceChar noComma hne
  have hraw : ",".intercalate (meeting.flagged.map Guest.email) ≠ "" := by
    intro hempty
    rw [hempty] at hpieces
    have hmem : [] ∈ meeting.flagged.map fun guest => guest.address.text := by
      rw [← hpieces]
      exact List.mem_singleton_self _
    obtain ⟨guest, _, htext⟩ := List.mem_map.mp hmem
    exact guest.address.text_ne_nil htext
  have hkeys : ((splitComma
      (",".intercalate (meeting.flagged.map Guest.email)).toList).map fun e =>
        frontend.toLowerCase (String.ofList (trimWith isSpaceChar e))) =
          meeting.keys := by
    have hmap := congrArg (List.map fun text =>
      frontend.toLowerCase (String.ofList text)) hpieces
    rw [List.map_map, List.map_map] at hmap
    refine hmap.trans (List.map_congr_left fun guest _ => ?_)
    exact frontend.toLowerCase_ascii _ guest.address.toNat_lt
  have hkeep : meeting.keys.filter (·.length > 0) = meeting.keys := by
    rw [List.filter_eq_self]
    intro key hkey
    obtain ⟨guest, _, rfl⟩ := List.mem_map.mp hkey
    rw [String.length_ofList, List.length_map]
    exact decide_eq_true (List.length_pos_iff.mpr guest.address.text_ne_nil)
  rw [Option.bind_some, Frontend.delegateHostEmails, frontend.safeString_eq,
    if_neg hraw, hkeys, hkeep]

theorem applyDelegateHosts_eq
    (noComma : ∀ guest ∈ meeting.flagged, ',' ∉ guest.address.text) :
    frontend.applyDelegateHosts
      ((emittedDelegateHosts meeting.event).bind frontend.delegateHostEmails)
      (meeting.guests.map Guest.unflagged) =
        meeting.guests.map fun guest => guest.attendee.withDelegateHost
          (meeting.keys.contains
            (String.ofList (guest.link.map Char.toLower))) := by
  rw [delegateHostEmails_eq frontend meeting noComma]
  split
  · rename_i hnil
    rw [Frontend.applyDelegateHosts]
    apply List.map_congr_left
    intro guest _
    rw [keys, hnil]
    rfl
  · rw [Frontend.applyDelegateHosts, List.map_map]
    apply List.map_congr_left
    intro guest _
    rw [Function.comp_apply, Guest.unflagged, UserAttendee.withDelegateHost,
      guest.toLowerCase_link frontend]
    split
    · rename_i hmem
      rw [hmem]
      rfl
    · rename_i hmem
      rw [Bool.eq_false_iff.mpr hmem]
      rfl

theorem mem_keys_iff {guest : Guest} :
    String.ofList (guest.link.map Char.toLower) ∈ meeting.keys ↔
      ∃ other ∈ meeting.flagged,
        other.address.text.map Char.toLower = guest.link.map Char.toLower := by
  rw [keys, List.mem_map]
  refine exists_congr fun other => and_congr_right fun _ => ?_
  exact String.ofList_inj

theorem scheme_eq_nil {guest other : Guest}
    (h : other.address.text.map Char.toLower = guest.link.map Char.toLower) :
    guest.scheme = [] := by
  obtain hscheme | hscheme := guest.scheme_eq
  · exact hscheme
  have hlength : guest.scheme.length = 7 := by
    rw [← List.length_map Char.toLower, hscheme]
    rfl
  have hstarts : startsWithMailto other.address.text = true := by
    rw [startsWithMailto, List.map_take, h, Guest.link, List.map_append,
      hscheme]
    exact beq_self_eq_true _
  rw [other.address.not_startsWithMailto] at hstarts
  cases hstarts

theorem flags_iff
    (noComma : ∀ guest ∈ meeting.flagged, ',' ∉ guest.address.text) :
    frontend.applyDelegateHosts
      ((emittedDelegateHosts meeting.event).bind frontend.delegateHostEmails)
      (meeting.guests.map Guest.unflagged) = meeting.event.attendee ↔
        ∀ guest ∈ meeting.flagged, guest.scheme = [] := by
  rw [applyDelegateHosts_eq frontend meeting noComma, event, List.map_inj_left]
  have hsame (guest : Guest) : guest.attendee.withDelegateHost
      (meeting.keys.contains (String.ofList (guest.link.map Char.toLower))) =
        guest.attendee ↔
      (String.ofList (guest.link.map Char.toLower) ∈ meeting.keys ↔
        guest.flagged = true) := by
    rw [Guest.attendee, UserAttendee.withDelegateHost, UserAttendee.mk.injEq,
      Bool.eq_iff_iff, List.contains_iff_mem]
    exact and_iff_right rfl
  constructor
  · intro h guest hguest
    obtain ⟨hmem, hflagged⟩ := List.mem_filter.mp hguest
    have hkey := ((hsame guest).mp (h guest hmem)).mpr hflagged
    obtain ⟨other, _, hother⟩ := meeting.mem_keys_iff.mp hkey
    exact scheme_eq_nil hother
  · intro h guest hmem
    rw [hsame, mem_keys_iff]
    constructor
    · rintro ⟨other, hother, hlower⟩
      have hlink : other.address.text = other.link := by
        rw [Guest.link, h other hother]
        rfl
      rw [hlink] at hlower
      obtain ⟨hotherMem, hflagged⟩ := List.mem_filter.mp hother
      rwa [← List.inj_on_of_nodup_map meeting.distinct hotherMem hmem hlower]
    · intro hflagged
      have hguest : guest ∈ meeting.flagged :=
        List.mem_filter.mpr ⟨hmem, hflagged⟩
      refine ⟨guest, hguest, ?_⟩
      rw [Guest.link, h guest hguest]
      rfl

end Meeting

/-- The flags come through exactly when no flagged guest has a link or a comma
in the address. -/
theorem survives_iff_plain (frontend : Frontend) (meeting : Meeting) :
    Survives frontend meeting ↔ meeting.Plain := by
  constructor
  · intro h guest hmem hflagged
    have hguest : guest ∈ meeting.flagged :=
      List.mem_filter.mpr ⟨hmem, hflagged⟩
    have noComma := meeting.noComma_of_delegates h.delegates
    exact ⟨(Meeting.flags_iff frontend meeting noComma).mp h.flags guest hguest,
      noComma guest hguest⟩
  · intro h
    have hplain : ∀ guest ∈ meeting.flagged,
        guest.scheme = [] ∧ ',' ∉ guest.address.text := by
      intro guest hguest
      obtain ⟨hmem, hflagged⟩ := List.mem_filter.mp hguest
      exact h guest hmem hflagged
    have noComma : ∀ guest ∈ meeting.flagged, ',' ∉ guest.address.text :=
      fun guest hguest => (hplain guest hguest).2
    exact ⟨(Meeting.flags_iff frontend meeting noComma).mpr fun guest hguest =>
      (hplain guest hguest).1, meeting.splitToList_emails noComma⟩

/-! A guest whose flag is lost. -/

def asciiFrontend : Frontend where
  toLowerCase := fun text => String.ofList (text.toList.map Char.toLower)
  safeString := id
  toLowerCase_ascii := fun text _ => by rw [String.toList_ofList]
  safeString_eq := fun _ => rfl

def bob : EmailAddress where
  localPart := .dotted ⟨"bob".toList, by decide,
    List.all_eq_true.mp (by decide)⟩ []
  domain := .labels ⟨"example".toList, by decide,
    List.all_eq_true.mp (by decide), by decide, by decide⟩
    [⟨"org".toList, by decide, List.all_eq_true.mp (by decide), by decide,
      by decide⟩]

def linkedMeeting : Meeting where
  meetUrl := "https://meet.example.org/abc-defg-hij"
  guests := [⟨"mailto:".toList, bob, true, .inr (by decide)⟩]
  meetUrl_ne := by decide
  distinct := List.nodup_singleton _

theorem linkedMeeting_not_survives :
    ¬ Survives asciiFrontend linkedMeeting := by
  intro h
  have hflags := congrArg (List.map UserAttendee.isDelegateHost) h.flags
  revert hflags
  decide

end TwakeKickstart.CalendarApp
