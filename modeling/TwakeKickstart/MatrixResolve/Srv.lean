import TwakeKickstart.Library.Ranking
import TwakeKickstart.MatrixResolve.Resolve

namespace TwakeKickstart.MatrixResolve

open Library

/-! The order in which the URLs of SRV records are returned. -/

/-- The name that is asked for in the DNS, if any is. -/
def dnsName (network : Network) (name : String) : Option String :=
  if isIpLiteral name = none ∧ isHostname name = some none then
    match (network.fetch (wellKnown name)).bind
        (JsValue.property "m.server") with
    | some (.str matrixServer) =>
        if matrixServer = "" then some name
        else if isIpLiteral matrixServer = none ∧
            (isHostname matrixServer).join = none then some matrixServer
        else none
    | _ => some name
  else none

/-- The URL that a token is checked at. -/
def baseUrl : Urls → Option String
  | .single url => some url
  | .many urls => urls.head?

/-- A permutation of one URL for each record, sorted by increasing priority, of
which the first one is used. -/
structure InPriorityOrder (records : List SrvRecord) (urls : Urls) : Prop where
  ranked : IsRanked SrvRecord.priority SrvRecord.url records urls.toList
  first : ∃ entry ∈ records, baseUrl urls = some entry.url ∧
    ∀ other ∈ records, entry.priority ≤ other.priority

/-- Of the records as they are answered, the first ones have the URLs of those
of the lowest priorities. -/
def AnsweredInOrder (records : List SrvRecord) : Prop :=
  RankedPrefixes SrvRecord.priority SrvRecord.url records
    (records.map SrvRecord.url)

theorem delegated_eq_dnsResolve {network : Network} {matrixServer : String}
    (literal : isIpLiteral matrixServer = none)
    (noPort : (isHostname matrixServer).join = none) :
    delegated network matrixServer = dnsResolve network matrixServer := by
  unfold delegated
  rw [literal]
  cases hhost : isHostname matrixServer with
  | none => rfl
  | some port =>
      cases port with
      | none => rfl
      | some digits =>
          rw [hhost] at noPort
          cases noPort

theorem matrixResolve_eq_dnsResolve {network : Network} {name target : String}
    (asked : dnsName network name = some target) :
    matrixResolve network name = dnsResolve network target := by
  unfold dnsName at asked
  split at asked
  · rename_i hname
    rw [matrixResolve, hname.1, hname.2]
    cases hanswer : (network.fetch (wellKnown name)).bind
        (JsValue.property "m.server") with
    | none =>
        rw [hanswer] at asked
        cases asked
        rfl
    | some value =>
        rw [hanswer] at asked
        cases value with
        | str matrixServer =>
            dsimp only at asked ⊢
            split at asked
            · rename_i hempty
              cases asked
              rw [if_pos hempty]
            · rename_i hempty
              rw [if_neg hempty]
              split at asked
              · rename_i hserver
                cases asked
                exact delegated_eq_dnsResolve hserver.1 hserver.2
              · cases asked
        | _ =>
            cases asked
            rfl
  · cases asked

theorem baseUrl_eq_head? (urls : Urls) : baseUrl urls = urls.toList.head? := by
  cases urls with
  | single url => rfl
  | many urls => rfl

theorem inPriorityOrder_iff {records : List SrvRecord} {urls : Urls}
    (nonempty : records ≠ []) : InPriorityOrder records urls ↔
      IsRanked SrvRecord.priority SrvRecord.url records urls.toList := by
  constructor
  · intro h
    exact h.ranked
  · intro h
    obtain ⟨sorted, hperm, hsorted, hurls⟩ := id h
    refine ⟨h, ?_⟩
    cases sorted with
    | nil => exact absurd (List.nil_perm.mp hperm) nonempty
    | cons entry rest =>
        rw [baseUrl_eq_head?, hurls]
        refine ⟨entry, hperm.subset List.mem_cons_self, rfl, ?_⟩
        intro other hother
        rw [List.pairwise_cons] at hsorted
        rcases List.mem_cons.mp (hperm.mem_iff.mpr hother) with rfl | hrest
        · exact Nat.le_refl _
        · exact hsorted.1 other hrest

/-- The URLs of the records that are found are in the order of the priorities
just when the answer has them in that order. -/
theorem inPriorityOrder_iff_answered (network : Network) {name target : String}
    (asked : dnsName network name = some target)
    (found : srvAnswer network target ≠ []) :
    (∃ urls, matrixResolve network name = .ok urls ∧
        InPriorityOrder (srvAnswer network target) urls) ↔
      AnsweredInOrder (srvAnswer network target) := by
  rw [matrixResolve_eq_dnsResolve asked]
  rcases dnsResolve_cases network target with
    ⟨urls, hresult, _, hurls⟩ | ⟨hnone, _⟩
  · rw [hresult]
    constructor
    · rintro ⟨other, hother, horder⟩
      cases hother
      rw [inPriorityOrder_iff found, hurls, isRanked_iff] at horder
      exact horder.2
    · intro h
      refine ⟨urls, rfl, (inPriorityOrder_iff found).mpr ?_⟩
      rw [hurls, isRanked_iff, List.length_map]
      exact ⟨rfl, h⟩
  · exact absurd hnone found

theorem answeredInOrder_iff_sorted {records : List SrvRecord}
    (distinct : (records.map SrvRecord.url).Nodup) :
    AnsweredInOrder records ↔
      records.Pairwise fun a b => a.priority ≤ b.priority := by
  rw [← isRanked_map_iff_of_nodup distinct, isRanked_iff, List.length_map]
  exact (and_iff_right rfl).symm

/-- A network in which the servers of every host are the two given ones. -/
def twoServers (first second : SrvRecord) : Network where
  fetch _ := none
  resolveSrv _ := some [first, second]
  lookup _ := none

def mainServer : SrvRecord := ⟨"main.example.com", 8448, 10⟩

def spareServer : SrvRecord := ⟨"spare.example.com", 8448, 20⟩

theorem inPriorityOrder_main_first :
    ∃ urls, matrixResolve (twoServers mainServer spareServer) "example.com" =
        .ok urls ∧
      InPriorityOrder
        (srvAnswer (twoServers mainServer spareServer) "example.com") urls :=
  (inPriorityOrder_iff_answered _ (by decide) (by decide)).mpr
    ((answeredInOrder_iff_sorted (by decide)).mpr (by decide))

/-- The spare server is tried first when it is answered first. -/
theorem spare_first_not_inPriorityOrder :
    ¬ ∃ urls, matrixResolve (twoServers spareServer mainServer) "example.com" =
        .ok urls ∧
      InPriorityOrder
        (srvAnswer (twoServers spareServer mainServer) "example.com") urls := by
  have hasked : dnsName (twoServers spareServer mainServer) "example.com" =
      some "example.com" := by decide
  rintro ⟨urls, hresult, horder⟩
  rw [matrixResolve_eq_dnsResolve hasked] at hresult
  cases hresult
  have hunsorted : ¬ [spareServer, mainServer].Pairwise
      (fun a b => a.priority ≤ b.priority) := by decide
  exact hunsorted ((isRanked_map_iff_of_nodup (by decide)).mp horder.ranked)

end TwakeKickstart.MatrixResolve
