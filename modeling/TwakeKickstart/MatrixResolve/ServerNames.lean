import TwakeKickstart.MatrixResolve.Hosts

namespace TwakeKickstart.MatrixResolve

open Library Utils

/-! The server names that are resolved, and the URLs they are resolved to. -/

/-! The parts of a server name. -/

/-- The host of a name, and its port with the colon, as the validator cuts
it. -/
def partsOf (name : List Char) : List Char × List Char :=
  if name.head? = some '[' then
    (name.take (name.idxOf ']' + 1), name.drop (name.idxOf ']' + 1))
  else splitPort name

structure Parts (name : String) (host : List Char) (port : Option String) :
    Prop where
  text : name.toList = host ++ portText port
  isHost : IsHost host
  isPort : IsPortText port

theorem isPortText_of_isPort {port : List Char} (h : IsPort port) :
    IsPortText (some (String.ofList port)) := by
  obtain ⟨n, _, _, rfl⟩ := h
  intro digits hdigits
  cases hdigits
  rw [String.toList_ofList]
  refine ⟨Nat.toDigits_ne_nil, ?_⟩
  intro c hc
  exact Nat.isDigit_of_mem_toDigits (by decide) (by decide) hc

theorem parts_of_valid {name : String} (valid : isValidServerName name = true)
    (unbracketed : name.toList.head? ≠ some '[') :
    ∃ host port, Parts name host port ∧
      partsOf name.toList = (host, portText port) := by
  rw [isValidServerName_iff_isServerName unbracketed] at valid
  rw [partsOf, if_neg unbracketed]
  rcases valid with hhost | ⟨host, port, hhost, hport, htext⟩
  · refine ⟨name.toList, none, ⟨(List.append_nil _).symm, hhost,
      fun _ hnone => nomatch hnone⟩, ?_⟩
    exact splitPort_of_not_mem (colon_not_mem_host hhost)
  · refine ⟨host, some (String.ofList port),
      ⟨?_, hhost, isPortText_of_isPort hport⟩, ?_⟩
    · rw [portText, String.toList_ofList, htext]
    · rw [htext, splitPort_joined (colon_not_mem_port hport),
        if_neg (host_ne_nil hhost), portText, String.toList_ofList]

section Parts

variable {name : String} {host : List Char} {port : Option String}

theorem isIpLiteral_of_not_isIpv4 (parts : Parts name host port)
    (h : ¬ IsIpv4 host) : isIpLiteral name = none := by
  cases hfound : isIpLiteral name with
  | none => rfl
  | some found =>
      have hplain : ∀ c ∈ host, isSeparator c = false := by
        intro c hc
        rw [Bool.eq_false_iff]
        intro hseparator
        simp only [isSeparator, Bool.or_eq_true, beq_iff_eq] at hseparator
        have hclass := mem_host parts.isHost hc
        rcases hseparator with rfl | rfl
        · exact absurd hclass (by decide)
        · exact absurd hclass (by decide)
      exact absurd
        (ipv4_of_isIpLiteral hplain parts.text parts.isPort hfound).1 h

theorem colon_not_mem_of_hostname {text : List Char}
    (h : Regex.Matches hostname text) : ':' ∉ text :=
  Regex.not_mem_of_rejects h (by decide)

theorem isHostname_of_letter (parts : Parts name host port)
    (h : (topLabel host).head?.any Char.isAlpha = true) :
    isHostname name = some port :=
  matchHost_of_matches (by decide) ((matches_hostname_iff parts.isHost).mpr h)
    parts.text parts.isPort

theorem isHostname_of_not_letter (parts : Parts name host port)
    (h : ¬ (topLabel host).head?.any Char.isAlpha = true) :
    isHostname name = none := by
  cases hfound : isHostname name with
  | none => rfl
  | some found =>
      obtain ⟨head, hhead, htext, _⟩ := matchHost_eq_some hfound
      obtain ⟨rfl, _⟩ := parts_inj (colon_not_mem_of_hostname hhead)
        (colon_not_mem_host parts.isHost) (htext.symm.trans parts.text)
      exact absurd ((matches_hostname_iff parts.isHost).mp hhead) h

end Parts

theorem matchHost_bracketed {host : Regex} {guarded : Bool} {name : String}
    (rejected : host.rejects '[' = true)
    (bracketed : name.toList.head? = some '[') :
    matchHost host guarded name = none := by
  cases hfound : matchHost host guarded name with
  | none => rfl
  | some port =>
      obtain ⟨head, hhead, htext, isPort⟩ := matchHost_eq_some hfound
      have hbracket := List.mem_of_head? bracketed
      rw [htext, List.mem_append] at hbracket
      rcases hbracket with hmem | hmem
      · exact absurd hmem (Regex.not_mem_of_rejects hhead rejected)
      · cases port with
        | none => cases hmem
        | some digits =>
            rw [portText, List.mem_cons] at hmem
            rcases hmem with hcolon | hdigit
            · exact absurd hcolon (by decide)
            · exact absurd ((isPort digits rfl).2 '[' hdigit) (by decide)

/-! The answers from which only URLs are built. -/

/-- A host is asked for in the DNS: the records that are used name hosts, or
there are none and the name that is found is a host itself. -/
def DnsHosts (network : Network) (name : String) : Prop :=
  (∀ entry ∈ srvAnswer network name, UrlHost.IsHost entry.name.toList) ∧
    (srvAnswer network name = [] → network.lookup name = none →
      UrlHost.IsHost name.toList)

/-- No literal of an IPv6 address is delegated to. -/
def DelegatedHost (network : Network) (matrixServer : String) : Prop :=
  (isIpLiteral matrixServer ≠ none → IsIpv4Literal matrixServer) ∧
    (isIpLiteral matrixServer = none →
      (∀ port, isHostname matrixServer ≠ some (some port)) →
        DnsHosts network matrixServer)

def AnswersAreHosts (network : Network) (name : String) : Prop :=
  match (network.fetch (wellKnown name)).bind (JsValue.property "m.server") with
  | some (.str matrixServer) =>
      if matrixServer = "" then DnsHosts network name
      else DelegatedHost network matrixServer
  | _ => DnsHosts network name

/-- Every URL of a result is the URL of a server. -/
def BaseUrls (result : Except ResolveError Urls) : Prop :=
  ∀ urls, result = .ok urls → ∀ url ∈ urls.toList, UrlHost.IsBaseUrl url

theorem baseUrls_single_iff {url : String} :
    BaseUrls (.ok (.single url)) ↔ UrlHost.IsBaseUrl url := by
  constructor
  · intro h
    exact h _ rfl url List.mem_cons_self
  · intro h urls hurls
    cases hurls
    exact List.forall_mem_singleton.mpr h

theorem isBaseUrl_url_iff {entry : SrvRecord} :
    UrlHost.IsBaseUrl entry.url ↔ UrlHost.IsHost entry.name.toList := by
  have hdigits : IsPortText (some (toString entry.port)) := by
    intro digits hdigits
    cases hdigits
    rw [Nat.toString_eq_repr, Nat.toList_repr]
    refine ⟨Nat.toDigits_ne_nil, ?_⟩
    intro c hc
    exact Nat.isDigit_of_mem_toDigits (by decide) (by decide) hc
  apply isBaseUrl_joined_iff hdigits
  simp [SrvRecord.url, String.toList_append, portDigits]

theorem toList_defaultUrl (name : String) :
    ("https://" ++ name ++ ":8448/").toList =
      "https://".toList ++ (name.toList ++ ':' :: portDigits none) ++ ['/'] := by
  simp [String.toList_append, portDigits]

theorem baseUrls_dnsResolve_iff {network : Network} {name : String} :
    BaseUrls (dnsResolve network name) ↔ DnsHosts network name := by
  rcases dnsResolve_cases network name with
    ⟨urls, hresult, hrecords, hurls⟩ | ⟨hnone, hresult⟩
  · rw [hresult]
    have hall : BaseUrls (.ok urls) ↔
        ∀ entry ∈ srvAnswer network name, UrlHost.IsHost entry.name.toList := by
      constructor
      · intro h entry hentry
        rw [← isBaseUrl_url_iff]
        apply h urls rfl
        rw [hurls]
        exact List.mem_map_of_mem hentry
      · intro h found hfound url hurl
        cases hfound
        rw [hurls] at hurl
        obtain ⟨entry, hentry, rfl⟩ := List.mem_map.mp hurl
        exact isBaseUrl_url_iff.mpr (h entry hentry)
    rw [hall]
    constructor
    · intro h
      exact ⟨h, fun hnil => absurd hnil hrecords⟩
    · intro h
      exact h.1
  · rw [hresult, DnsHosts, hnone]
    cases hlookup : network.lookup name with
    | none =>
        have hport : IsPortText none := fun _ hnone => nomatch hnone
        rw [baseUrls_single_iff,
          isBaseUrl_joined_iff hport (toList_defaultUrl name)]
        simp
    | some err => simp [BaseUrls]

theorem dnsResolve_ne_invalidHostname {network : Network} {name other : String} :
    dnsResolve network name ≠ .error (.invalidHostname other) := by
  intro h
  rcases dnsResolve_cases network name with ⟨urls, hresult, _⟩ | ⟨_, hresult⟩
  · rw [hresult] at h
    cases h
  · rw [hresult] at h
    split at h
    · cases h
    · cases h

theorem isBaseUrl_of_isHostname {name digits : String}
    (h : isHostname name = some (some digits)) :
    UrlHost.IsBaseUrl ("https://" ++ name ++ "/") := by
  obtain ⟨head, hhead, htext, hport⟩ := matchHost_eq_some h
  have hnonempty : head ≠ [] := by
    rintro rfl
    rw [← Regex.acceptsList_iff] at hhead
    exact absurd hhead (by decide)
  exact (isBaseUrl_joined_iff hport (toList_literalUrl htext)).mpr
    (UrlHost.isHost_of_unreserved hnonempty
      fun c hc => char_of_hostname hhead hc)

theorem baseUrls_delegated_iff {network : Network} {matrixServer : String} :
    BaseUrls (delegated network matrixServer) ↔
      DelegatedHost network matrixServer := by
  unfold delegated DelegatedHost
  split
  · rename_i port hliteral
    rw [baseUrls_single_iff, isBaseUrl_literalUrl_iff hliteral, hliteral]
    simp
  · rename_i hliteral
    rw [hliteral]
    split
    · rename_i port hhost
      rw [baseUrls_single_iff, hhost]
      simpa using isBaseUrl_of_isHostname hhost
    · rename_i hhost
      rw [baseUrls_dnsResolve_iff]
      constructor
      · intro h
        exact ⟨fun hne => absurd rfl hne, fun _ _ => h⟩
      · intro h
        exact h.2 rfl hhost

/-! Which server names are resolved. -/

/-- The URL of the host and the port that a name gives, with the default port
where it gives none. -/
def IsUrlOf (name url : String) : Prop :=
  url.toList = "https://".toList ++ (partsOf name.toList).1 ++
    (if (partsOf name.toList).2 = [] then ":8448".toList
      else (partsOf name.toList).2) ++ ['/']

structure Covered (network : Network) (name : String) : Prop where
  recognised : ∀ other,
    matrixResolve network name ≠ .error (.invalidHostname other)
  wellFormed : BaseUrls (matrixResolve network name)
  sameServer : (partsOf name.toList).2 ≠ [] ∨
      IsIpv4 (partsOf name.toList).1 ∨ name.toList.head? = some '[' →
    ∃ url, matrixResolve network name = .ok (.single url) ∧ IsUrlOf name url

/-- An IPv4 address, or a host whose last label starts with a letter; without a
port it takes answers that name hosts. -/
def Resolvable (network : Network) (name : String) : Prop :=
  IsIpv4 (partsOf name.toList).1 ∨
    name.toList.head? ≠ some '[' ∧
      (topLabel (partsOf name.toList).1).head?.any Char.isAlpha = true ∧
      ((partsOf name.toList).2 = [] → AnswersAreHosts network name)

section Covered

variable {network : Network} {name : String} {host : List Char}
  {port : Option String}

theorem matrixResolve_bracketed (bracketed : name.toList.head? = some '[') :
    matrixResolve network name = .error (.invalidHostname name) := by
  unfold matrixResolve
  rw [isIpLiteral, matchHost_bracketed (by decide) bracketed, isHostname,
    matchHost_bracketed (by decide) bracketed]

theorem not_isIpv4_of_bracketed (bracketed : name.toList.head? = some '[') :
    ¬ IsIpv4 (partsOf name.toList).1 := by
  intro h
  rw [partsOf, if_pos bracketed] at h
  obtain ⟨rest, hname⟩ := List.head?_eq_some_iff.mp bracketed
  rw [hname, List.take_succ_cons] at h
  exact absurd (mem_of_isIpv4 h List.mem_cons_self) (by decide)

theorem isUrlOf_literalUrl (parts : Parts name host port)
    (hparts : partsOf name.toList = (host, portText port)) :
    IsUrlOf name (literalUrl name port) := by
  rw [IsUrlOf, hparts, toList_literalUrl parts.text]
  cases port with
  | none => simp [portText, portDigits]
  | some digits => simp [portText, portDigits]

theorem covered_of_single (parts : Parts name host port)
    (hparts : partsOf name.toList = (host, portText port))
    (h : matrixResolve network name = .ok (.single (literalUrl name port))) :
    Covered network name where
  recognised := by
    intro other hother
    rw [h] at hother
    cases hother
  wellFormed := by
    rw [h, baseUrls_single_iff,
      isBaseUrl_joined_iff parts.isPort (toList_literalUrl parts.text)]
    exact isHost_of_isHost parts.isHost
  sameServer := by
    intro _
    exact ⟨_, h, isUrlOf_literalUrl parts hparts⟩

theorem delegated_ne_invalidHostname {matrixServer other : String} :
    delegated network matrixServer ≠ .error (.invalidHostname other) := by
  unfold delegated
  split
  · exact nofun
  · split
    · exact nofun
    · exact dnsResolve_ne_invalidHostname

theorem asked_iff (literal : isIpLiteral name = none)
    (letter : isHostname name = some none) :
    (∀ other, matrixResolve network name ≠ .error (.invalidHostname other)) ∧
      (BaseUrls (matrixResolve network name) ↔
        AnswersAreHosts network name) := by
  unfold matrixResolve AnswersAreHosts
  rw [literal, letter]
  dsimp only
  cases (network.fetch (wellKnown name)).bind
      (JsValue.property "m.server") with
  | none =>
      exact ⟨fun _ => dnsResolve_ne_invalidHostname, baseUrls_dnsResolve_iff⟩
  | some value =>
      cases value with
      | str matrixServer =>
          by_cases hempty : matrixServer = ""
          · simp only [if_pos hempty]
            exact ⟨fun _ => dnsResolve_ne_invalidHostname,
              baseUrls_dnsResolve_iff⟩
          · simp only [if_neg hempty]
            exact ⟨fun _ => delegated_ne_invalidHostname,
              baseUrls_delegated_iff⟩
      | _ =>
          exact ⟨fun _ => dnsResolve_ne_invalidHostname,
            baseUrls_dnsResolve_iff⟩

end Covered

/-- A valid name is resolved to URLs of its server just when it is no IPv6
literal, its last label starts with a letter unless it is an IPv4 address, and
the answers that are asked for name hosts. -/
theorem covered_iff_resolvable (network : Network) {name : String}
    (valid : isValidServerName name = true) :
    Covered network name ↔ Resolvable network name := by
  by_cases hbracket : name.toList.head? = some '['
  · constructor
    · intro h
      exact absurd (matrixResolve_bracketed hbracket) (h.recognised name)
    · rintro (hipv4 | h)
      · exact absurd hipv4 (not_isIpv4_of_bracketed hbracket)
      · exact absurd hbracket h.1
  · obtain ⟨host, port, parts, hparts⟩ := parts_of_valid valid hbracket
    rw [Resolvable, hparts]
    by_cases hipv4 : IsIpv4 host
    · refine iff_of_true (covered_of_single parts hparts ?_) (.inl hipv4)
      rw [matrixResolve, isIpLiteral_of_isIpv4 hipv4 parts.text parts.isPort]
    · have hliteral := isIpLiteral_of_not_isIpv4 parts hipv4
      by_cases hletter : (topLabel host).head?.any Char.isAlpha = true
      · have hhost := isHostname_of_letter parts hletter
        cases port with
        | some digits =>
            refine iff_of_true (covered_of_single parts hparts ?_)
              (.inr ⟨hbracket, hletter, fun hnil => nomatch hnil⟩)
            rw [matrixResolve, hliteral, hhost]
            rfl
        | none =>
            obtain ⟨hrecognised, hurls⟩ :=
              @asked_iff network name hliteral hhost
            constructor
            · intro h
              exact .inr ⟨hbracket, hletter, fun _ => hurls.mp h.wellFormed⟩
            · rintro (h | ⟨_, _, hanswers⟩)
              · exact absurd h hipv4
              · refine ⟨hrecognised, hurls.mpr (hanswers rfl), ?_⟩
                rw [hparts]
                rintro (hport | hsame | hbracketed)
                · exact absurd rfl hport
                · exact absurd hsame hipv4
                · exact absurd hbracketed hbracket
      · have hhost := isHostname_of_not_letter parts hletter
        constructor
        · intro h
          refine absurd ?_ (h.recognised name)
          rw [matrixResolve, hliteral, hhost]
        · rintro (h | ⟨_, h, _⟩)
          · exact absurd h hipv4
          · exact absurd h hletter

/-- No page and no record is found, and every name has an address. -/
def silent : Network where
  fetch _ := none
  resolveSrv _ := none
  lookup _ := none

theorem covered_with_port : Covered silent "matrix.org:8448" :=
  (covered_iff_resolvable silent (by decide)).mpr
    (.inr ⟨by decide, by decide, fun h => absurd h (by decide)⟩)

/-- An address in brackets and a last label that starts with a digit are
refused as hostnames. -/
theorem valid_names_not_covered :
    (isValidServerName "[::1]:8448" = true ∧
        ¬ Covered silent "[::1]:8448") ∧
      isValidServerName "example.123" = true ∧
        ¬ Covered silent "example.123" := by
  refine ⟨⟨by decide, ?_⟩, by decide, ?_⟩
  · intro h
    exact absurd (matrixResolve_bracketed (by decide)) (h.recognised _)
  · intro h
    have hliteral : isIpLiteral "example.123" = none := by decide
    have hhost : isHostname "example.123" = none := by decide
    refine absurd ?_ (h.recognised "example.123")
    rw [matrixResolve, hliteral, hhost]

end TwakeKickstart.MatrixResolve
