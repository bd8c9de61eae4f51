import TwakeKickstart.Library.Ip
import TwakeKickstart.FederatedIdentityService.Auth

namespace TwakeKickstart.FederatedIdentityService

open Library Library.Ip Utils IdentityServer

/-! The list of trusted servers, whose requests need no token. -/

/-- The package that parses addresses.  A text that is not valid gives
`none`; an IPv4 address comes with its subnet mask. -/
structure IpAddress where
  address6 : String → Option Network
  address4 : String → Option (BitVec 32 × Fin 33)

structure IpAddress.Lawful (package : IpAddress) : Prop where
  colon : ∀ text network, package.address6 text = some network →
    ':' ∈ text.toList
  decimal : ∀ text parsed, package.address4 text = some parsed →
    '.' ∈ text.toList ∧
      ∀ c ∈ text.toList, c.isDigit = true ∨ c = '.' ∨ c = '/'
  host : ∀ address, package.address4 (inetNtop4 address) = some (address, 32)

def fromAddress4 (parsed : BitVec 32 × Fin 33) : Network where
  address := mapped parsed.1
  length := 96 + parsed.2.val
  length_le := by omega

-- `none` when it throws.
def convertToIPv6 (package : IpAddress) (ipAddress : String) :
    Option Network :=
  match package.address6 ipAddress with
  | some network => some network
  | none => (package.address4 ipAddress).map fromAddress4

def remoteAddress (trustXForwardedForHeader : Bool)
    (xForwardedFor : Option String) (socket : String) : String :=
  if trustXForwardedForHeader then
    match xForwardedFor with
    | some header => if header = "" then socket else header
    | none => socket
  else socket

def originalRequesterIPAddress (remoteAddress : String) : String :=
  String.ofList (lastSegment remoteAddress.toList)

/-- The test with `includes` compares references and never succeeds. -/
def isTrusted (package : IpAddress) (trustedServersListAsIPv6 : List Network)
    (remoteAddress : String) : Option Bool :=
  (convertToIPv6 package (originalRequesterIPAddress remoteAddress)).map
    fun requester => trustedServersListAsIPv6.any requester.isInSubnet

/-- The service's authenticator; `none` when its construction throws. -/
def serviceAuthenticate (package : IpAddress) (trustedServersList : List String)
    (trustXForwardedForHeader : Bool) (xForwardedFor : Option String)
    (socket : String) (callback : JsValue → JsValue → Procedure)
    (req : Request) : Option Procedure :=
  (trustedServersList.mapM (convertToIPv6 package)).map fun networks =>
    Authenticate (isTrusted package networks
      (remoteAddress trustXForwardedForHeader xForwardedFor socket))
      callback req

/-- The request is passed on whatever token it carries. -/
def SkipsToken (package : IpAddress) (trustedServersList : List String)
    (xForwardedFor : Option String) (socket : String) : Prop :=
  ∀ callback req, serviceAuthenticate package trustedServersList false
      xForwardedFor socket callback req =
    some (callback (.obj [("sub", .str ""), ("epoch", .num 0)])
      (.str tokenTrustedServer))

/-- The address lies in one of the listed networks. -/
def Belongs (package : IpAddress) (trustedServersList : List String)
    (address : BitVec 128) : Prop :=
  ∃ entry ∈ trustedServersList, ∃ network,
    convertToIPv6 package entry = some network ∧ network.Contains address

/-- The service starts: every entry is a valid address or subnet. -/
def Configured (package : IpAddress) (trustedServersList : List String) :
    Prop :=
  ∀ entry ∈ trustedServersList, (convertToIPv6 package entry).isSome = true

/-- An IPv6 address in hexadecimal is never recognised; one with a dotted end
is taken for the IPv4 address in it. -/
def Recognised (package : IpAddress) (trustedServersList : List String) :
    Remote → Prop
  | .v4 _ => True
  | .v6 address _ =>
      upper address = 0xffff ∨
      (if WrittenDotted address then
        (Belongs package trustedServersList (mapped (embedded address)) ↔
          Belongs package trustedServersList address)
      else ¬ Belongs package trustedServersList address)

section Exactness

variable {package : IpAddress} {trustedServersList : List String}

theorem skipsToken_iff (xForwardedFor : Option String) (socket : String) :
    SkipsToken package trustedServersList xForwardedFor socket ↔
      ∃ networks, trustedServersList.mapM (convertToIPv6 package) =
          some networks ∧
        isTrusted package networks socket = some true := by
  unfold SkipsToken serviceAuthenticate
  rw [show remoteAddress false xForwardedFor socket = socket from rfl]
  cases trustedServersList.mapM (convertToIPv6 package) with
  | none =>
      constructor
      · intro h
        cases h (fun _ _ => .done) {}
      · rintro ⟨networks, hnone, _⟩
        cases hnone
  | some networks =>
      simp only [Option.map_some, Option.some.injEq, exists_eq_left']
      constructor
      · intro h
        cases htrusted : isTrusted package networks socket with
        | none =>
            have hskip := h (fun _ _ => .done) {}
            rw [htrusted] at hskip
            cases hskip
        | some trusted =>
            cases trusted with
            | true => rfl
            | false =>
                have hskip := h (fun _ _ => .done) {}
                rw [htrusted] at hskip
                cases hskip
      · intro h callback req
        rw [h]
        rfl

theorem exists_networks (configured : Configured package trustedServersList) :
    ∃ networks, trustedServersList.mapM (convertToIPv6 package) =
        some networks ∧
      ∀ network, network ∈ networks ↔ ∃ entry ∈ trustedServersList,
        convertToIPv6 package entry = some network := by
  induction trustedServersList with
  | nil => exact ⟨[], rfl, by simp⟩
  | cons entry rest ih =>
      obtain ⟨networks, hrest, hmem⟩ := ih fun other hother =>
        configured other (List.mem_cons_of_mem _ hother)
      obtain ⟨network, hnetwork⟩ := Option.isSome_iff_exists.mp
        (configured entry List.mem_cons_self)
      refine ⟨network :: networks, ?_, ?_⟩
      · rw [List.mapM_cons, hnetwork, hrest]
        rfl
      · intro other
        rw [List.mem_cons, hmem, List.exists_mem_cons_iff, hnetwork,
          Option.some.injEq, eq_comm]

theorem isTrusted_dotted (lawful : package.Lawful) (networks : List Network)
    {text : String} {address : BitVec 32}
    (h : lastSegment text.toList = (inetNtop4 address).toList) :
    isTrusted package networks text = some true ↔
      ∃ network ∈ networks, network.Contains (mapped address) := by
  have hsix : package.address6 (inetNtop4 address) = none := by
    cases hparsed : package.address6 (inetNtop4 address) with
    | none => rfl
    | some network =>
        exact absurd (lawful.colon _ _ hparsed)
          (colon_not_mem_inetNtop4 address)
  have hconvert : convertToIPv6 package (inetNtop4 address) =
      some (.host (mapped address)) := by
    unfold convertToIPv6
    rw [hsix, lawful.host address]
    rfl
  unfold isTrusted originalRequesterIPAddress
  rw [h, String.ofList_toList, hconvert, Option.map_some,
    Option.some.injEq, List.any_eq_true]
  simp only [Network.host_isInSubnet]

theorem isTrusted_none (lawful : package.Lawful) (networks : List Network)
    {text : String}
    (h : '.' ∉ lastSegment text.toList ∨ '%' ∈ lastSegment text.toList) :
    isTrusted package networks text = none := by
  have hsix : package.address6 (String.ofList (lastSegment text.toList)) =
      none := by
    cases hparsed :
        package.address6 (String.ofList (lastSegment text.toList)) with
    | none => rfl
    | some network =>
        have hcolon := lawful.colon _ _ hparsed
        rw [String.toList_ofList] at hcolon
        exact absurd hcolon (colon_not_mem_lastSegment _)
  have hfour : package.address4 (String.ofList (lastSegment text.toList)) =
      none := by
    cases hparsed :
        package.address4 (String.ofList (lastSegment text.toList)) with
    | none => rfl
    | some parsed =>
        obtain ⟨hdot, hall⟩ := lawful.decimal _ _ hparsed
        rw [String.toList_ofList] at hdot hall
        rcases h with hnone | hpercent
        · exact absurd hdot hnone
        · exact absurd (hall _ hpercent) (by decide)
  unfold isTrusted originalRequesterIPAddress convertToIPv6
  rw [hsix, hfour]
  rfl

theorem lastSegment_zone (address : BitVec 128) (zone : Zone) :
    '%' ∈ lastSegment (inetNtop6 address ++ "%" ++ zone.val).toList := by
  have hzone : ':' ∉ "%".toList ++ zone.val.toList := by
    rw [List.mem_append, not_or]
    exact ⟨by decide, zone.property⟩
  rw [String.append_assoc, String.toList_append, String.toList_append,
    lastSegment_append_of_not_mem _ hzone]
  exact List.mem_append_right _ (List.mem_append_left _ (by decide))

theorem isTrusted_remote (lawful : package.Lawful) (networks : List Network)
    (remote : Remote) :
    isTrusted package networks remote.text = some true ↔
      match remote with
      | .v4 address => ∃ network ∈ networks, network.Contains (mapped address)
      | .v6 address _ => WrittenDotted address ∧
          ∃ network ∈ networks,
            network.Contains (mapped (embedded address)) := by
  cases remote with
  | v4 address =>
      exact isTrusted_dotted lawful networks (lastSegment_inetNtop4 address)
  | v6 address zone =>
      have hplain : isTrusted package networks (inetNtop6 address) =
          some true ↔ WrittenDotted address ∧ ∃ network ∈ networks,
            network.Contains (mapped (embedded address)) := by
        by_cases hdotted : WrittenDotted address
        · rw [isTrusted_dotted lawful networks (lastSegment_dotted hdotted)]
          exact (and_iff_right hdotted).symm
        · rw [isTrusted_none lawful networks (.inl fun hdot =>
            dot_not_mem_inetNtop6 hdotted (mem_of_mem_lastSegment hdot))]
          simp [hdotted]
      cases zone with
      | none => exact hplain
      | some name =>
          simp only [Remote.text]
          split
          · rename_i hlocal
            have hdotted := not_writtenDotted_of_linkLocal hlocal
            rw [isTrusted_none lawful networks
              (.inr (lastSegment_zone address name))]
            simp [hdotted]
          · exact hplain

theorem belongs_iff {networks : List Network}
    (h : ∀ network, network ∈ networks ↔ ∃ entry ∈ trustedServersList,
      convertToIPv6 package entry = some network) (address : BitVec 128) :
    Belongs package trustedServersList address ↔
      ∃ network ∈ networks, network.Contains address := by
  unfold Belongs
  constructor
  · rintro ⟨entry, hentry, network, hnetwork, hcontains⟩
    exact ⟨network, (h network).mpr ⟨entry, hentry, hnetwork⟩, hcontains⟩
  · rintro ⟨network, hmem, hcontains⟩
    obtain ⟨entry, hentry, hnetwork⟩ := (h network).mp hmem
    exact ⟨entry, hentry, network, hnetwork, hcontains⟩

theorem skipsToken_remote (lawful : package.Lawful)
    (configured : Configured package trustedServersList)
    (xForwardedFor : Option String) (remote : Remote) :
    SkipsToken package trustedServersList xForwardedFor remote.text ↔
      match remote with
      | .v4 address => Belongs package trustedServersList (mapped address)
      | .v6 address _ => WrittenDotted address ∧
          Belongs package trustedServersList (mapped (embedded address)) := by
  obtain ⟨networks, hnetworks, hmem⟩ := exists_networks configured
  rw [skipsToken_iff, hnetworks]
  simp only [Option.some.injEq, exists_eq_left', belongs_iff hmem]
  exact isTrusted_remote lawful networks remote

end Exactness

/-- A caller needs no token exactly when its address is listed, if the address
is one that the code recognises. -/
theorem bypass_exact_iff {package : IpAddress}
    {trustedServersList : List String} (lawful : package.Lawful)
    (configured : Configured package trustedServersList)
    (xForwardedFor : Option String) (remote : Remote) :
    (SkipsToken package trustedServersList xForwardedFor remote.text ↔
        Belongs package trustedServersList remote.address) ↔
      Recognised package trustedServersList remote := by
  rw [skipsToken_remote lawful configured]
  cases remote with
  | v4 address => exact iff_of_true Iff.rfl trivial
  | v6 address zone =>
      simp only [Remote.address, Recognised]
      by_cases hmapped : upper address = 0xffff
      · rw [mapped_of_upper hmapped]
        refine iff_of_true ?_ (.inl hmapped)
        exact and_iff_right (.inl hmapped)
      · by_cases hdotted : WrittenDotted address
        · rw [if_pos hdotted, and_iff_right hdotted]
          exact (or_iff_right hmapped).symm
        · rw [if_neg hdotted]
          simp only [hdotted, false_and, false_iff]
          exact (or_iff_right hmapped).symm

/-! A package that reads plain IPv4 addresses and two subnets. -/

def readOctet (digits : List Char) : BitVec 8 :=
  BitVec.ofNat 8 (Nat.ofDigitChars 10 digits 0)

def readDotted (text : String) : Option (BitVec 32) :=
  match text.toList.splitOn '.' with
  | [first, second, third, fourth] =>
      some (readOctet first ++ readOctet second ++ readOctet third ++
        readOctet fourth)
  | _ => none

def samplePackage : IpAddress where
  address6 := fun text =>
    if text = "2001:db8::/32" then
      some ⟨0x20010db8000000000000000000000000, 32, by decide⟩
    else none
  address4 := fun text =>
    if text = "192.168.1.0/24" then some (0xc0a80100, 24)
    else
      ((readDotted text).filter (inetNtop4 · = text)).map fun address =>
        (address, 32)

theorem readOctet_octet (address : BitVec 32) (index : Nat) :
    readOctet (octet address index).toList =
      address.extractLsb' (24 - 8 * index) 8 := by
  rw [readOctet, octet, Nat.toList_repr, Nat.ofDigitChars_ten_toDigits,
    BitVec.ofNat_toNat, BitVec.setWidth_eq]

theorem readDotted_inetNtop4 (address : BitVec 32) :
    readDotted (inetNtop4 address) = some address := by
  have hdot : ∀ index, '.' ∉ (octet address index).toList := by
    intro index h
    exact absurd (mem_octet h) (by decide)
  have htext : (inetNtop4 address).toList.splitOn '.' =
      [(octet address 0).toList, (octet address 1).toList,
        (octet address 2).toList, (octet address 3).toList] := by
    have hjoined : (inetNtop4 address).toList = ['.'].intercalate
        [(octet address 0).toList, (octet address 1).toList,
          (octet address 2).toList, (octet address 3).toList] := by
      simp [inetNtop4, String.toList_append, List.intercalate_cons_cons]
    rw [hjoined]
    exact List.splitOn_intercalate '.' (by simp [hdot]) (by simp)
  have hbits : address.extractLsb' 24 8 ++ address.extractLsb' 16 8 ++
      address.extractLsb' 8 8 ++ address.extractLsb' 0 8 = address := by
    rw [BitVec.extractLsb'_append_extractLsb'_eq_extractLsb'
        (show 24 = 16 + 8 from rfl),
      BitVec.extractLsb'_append_extractLsb'_eq_extractLsb'
        (show 16 = 8 + 8 from rfl),
      BitVec.extractLsb'_append_extractLsb'_eq_extractLsb'
        (show 8 = 0 + 8 from rfl)]
    exact BitVec.extractLsb'_eq_self
  unfold readDotted
  rw [htext]
  simp only [readOctet_octet]
  exact congrArg some hbits

theorem samplePackage_lawful : samplePackage.Lawful := by
  refine ⟨?_, ?_, ?_⟩
  · intro text network h
    simp only [samplePackage] at h
    split at h
    · rename_i htext
      rw [htext]
      decide
    · cases h
  · intro text parsed h
    simp only [samplePackage] at h
    split at h
    · rename_i htext
      rw [htext]
      exact ⟨by decide, by simp⟩
    · obtain ⟨address, haddress, _⟩ := Option.map_eq_some_iff.mp h
      have htext : inetNtop4 address = text := by
        simpa using (Option.filter_eq_some_iff.mp haddress).2
      rw [← htext]
      refine ⟨by simp [inetNtop4], ?_⟩
      intro c hc
      rcases mem_inetNtop4 hc with hdigit | hdot
      · exact .inl hdigit
      · exact .inr (.inl hdot)
  · intro address
    have hslash : inetNtop4 address ≠ "192.168.1.0/24" := by
      intro h
      have hc : '/' ∈ (inetNtop4 address).toList := by
        rw [h]
        decide
      rcases mem_inetNtop4 hc with hdigit | hdot
      · exact absurd hdigit (by decide)
      · exact absurd hdot (by decide)
    simp [samplePackage, hslash, readDotted_inetNtop4]

/-- Twenty-four bits of the address decide. -/
theorem bypass_private_network :
    SkipsToken samplePackage ["192.168.1.0/24"] none "192.168.1.7" := by
  have configured : Configured samplePackage ["192.168.1.0/24"] := by
    unfold Configured
    decide
  have hexact := bypass_exact_iff samplePackage_lawful configured none
    (.v4 0xc0a80107)
  apply (hexact.mpr trivial).mpr
  exact ⟨"192.168.1.0/24", List.mem_singleton_self _, _, rfl, by decide⟩

theorem ipv6_server_locked_out :
    ¬ (SkipsToken samplePackage ["2001:db8::/32"] none "2001:db8::1" ↔
      Belongs samplePackage ["2001:db8::/32"]
        0x20010db8000000000000000000000001) := by
  have configured : Configured samplePackage ["2001:db8::/32"] := by
    unfold Configured
    decide
  have hskips := skipsToken_remote samplePackage_lawful configured none
    (.v6 0x20010db8000000000000000000000001 none)
  have hbelongs : Belongs samplePackage ["2001:db8::/32"]
      0x20010db8000000000000000000000001 :=
    ⟨"2001:db8::/32", List.mem_singleton_self _, _, rfl, by decide⟩
  intro h
  exact absurd (hskips.mp (h.mpr hbelongs)).1 (by decide)

end TwakeKickstart.FederatedIdentityService
