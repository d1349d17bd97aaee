import FleetHealth.Proofs.Fleet.Verdicts

/-! # Keys stand for addresses

Repetitions are recognised and metrics are carried by key. Configured addresses of one key are
the same, whatever their texts look like, so only repetitions are left out, and what is carried
under the key of an address comes from calls to that address.
-/
namespace FleetHealth.Fleet

open Clock Gateway Net

/-! ## Repetitions -/

/-- Addresses told apart by their keys are left out only where they stood before. -/
theorem freshAddresses_eq_eraseDups {seen addresses : List Address}
    (hkeys : ∀ a ∈ seen ++ addresses, ∀ b ∈ seen ++ addresses, a.key = b.key → a = b) :
    freshAddresses (seen.map Address.key) addresses = (addresses.filter (· ∉ seen)).eraseDups := by
  induction addresses generalizing seen with
  | nil => rfl
  | cons first rest ih =>
    have hseen : first.key ∈ seen.map Address.key ↔ first ∈ seen := by
      refine ⟨fun hmem => ?_, List.mem_map_of_mem⟩
      obtain ⟨a, ha, hkey⟩ := List.mem_map.mp hmem
      exact hkeys a (List.mem_append_left _ ha) first (by simp) hkey ▸ ha
    unfold freshAddresses
    by_cases hfirst : first ∈ seen
    · rw [if_pos (hseen.mpr hfirst), List.filter_cons_of_neg (by simpa using hfirst)]
      refine ih fun a ha b hb => hkeys a ?_ b ?_
      · exact (List.sublist_cons_self first rest).append_left seen |>.subset ha
      · exact (List.sublist_cons_self first rest).append_left seen |>.subset hb
    · rw [if_neg (mt hseen.mp hfirst), List.filter_cons_of_pos (by simpa using hfirst),
        List.eraseDups_cons]
      have hmoved : ∀ a ∈ (first :: seen) ++ rest, a ∈ seen ++ first :: rest := by
        intro a ha
        simp only [List.cons_append, List.mem_cons, List.mem_append] at ha ⊢
        tauto
      have hrest : (rest.filter (· ∉ seen)).filter (fun b => !b == first) =
          rest.filter (· ∉ first :: seen) := by
        rw [List.filter_filter]
        refine List.filter_congr fun b _ => ?_
        by_cases hb : b = first <;> simp [hb]
      rw [hrest, ← ih fun a ha b hb => hkeys a (hmoved a ha) b (hmoved b hb)]
      rfl

theorem distinctAddresses_eq_eraseDups {addresses : List Address}
    (hkeys : ∀ a ∈ addresses, ∀ b ∈ addresses, a.key = b.key → a = b) :
    distinctAddresses addresses = addresses.eraseDups := by
  have hnone : addresses.filter (· ∉ ([] : List Address)) = addresses :=
    List.filter_eq_self.mpr fun a _ => by simp
  have hfresh : freshAddresses (List.map Address.key []) addresses =
      (addresses.filter (· ∉ ([] : List Address))).eraseDups := freshAddresses_eq_eraseDups hkeys
  rw [hnone] at hfresh
  exact hfresh

/-! ## Carried metrics -/

/-- Fresh metrics after the samples from calls to one address in any number of cycles. -/
def Controller.OwnSamples (c : Controller) (table : Table) (a : Address) (m : Metrics) : Prop :=
  ∃ worlds : List World, m = .ofWindows ((RateWindows.new c.collector.window).feed
    (worlds.flatMap fun w => (c.collector.context (w.surroundings table) a).samples table a))

/-- Metrics that an address of the table has left under its key. -/
def Controller.LeftBy (c : Controller) (table : Table) (key : String) (m : Metrics) : Prop :=
  ∃ a ∈ c.endpoints.get table, a.key = key ∧ c.OwnSamples table a m

theorem Controller.leftBy_passesOn {c : Controller}
    (hkeys : ∀ table, ∀ a ∈ c.endpoints.get table, ∀ b ∈ c.endpoints.get table, a.key = b.key → a = b) :
    c.PassesOn c.LeftBy := by
  intro w carried hcarried table a ha
  refine ⟨a, ha, rfl, ?_⟩
  rcases c.collector.startingMetrics_cases (carried.of table) a with hnew | hmem
  · rw [hnew]
    exact ⟨[w], by simp [Metrics.new, Metrics.ofWindows]⟩
  · -- the key may have been left by another address, but that would be the same one
    obtain ⟨b, hb, hkey, worlds, hown⟩ := hcarried table _ hmem
    obtain rfl := hkeys table b hb a ha hkey
    refine ⟨worlds ++ [w], ?_⟩
    have hwindows := congrArg Metrics.windows hown
    rw [hwindows, List.flatMap_append, RateWindows.feed_append]
    simp [Metrics.ofWindows]

/-- Whichever URLs a reader accepts, configured addresses are told apart by their keys. So
leaving out a repeated key leaves out a repeated address, and what is carried under the key of
an address in any reachable state was left by that address alone. -/
theorem keys_tell_addresses_apart {urls : List Char → Except UrlError Url} (hurls : UrlsShaped urls) :
    (∀ a b : Address, a.Configured urls → b.Configured urls → a.key = b.key → a = b) ∧
    (∀ addresses : List Address, (∀ a ∈ addresses, a.Configured urls) →
      distinctAddresses addresses = addresses.eraseDups) ∧
    ∀ c : Controller, (∀ table, ∀ a ∈ c.endpoints.get table, a.Configured urls) →
      ∀ s : FleetState, s.Reachable c → ∀ table a kept, a.Configured urls →
        (s.carried.of table).get? a.key = some kept →
          a ∈ c.endpoints.get table ∧ c.OwnSamples table a kept := by
  have hkeys : ∀ a b : Address, a.Configured urls → b.Configured urls →
      a.key = b.key → a = b := fun a b ha hb => (ha.wellFormed hurls).eq_of_key_eq (hb.wellFormed hurls)
  refine ⟨hkeys, fun addresses h => ?_, fun c h s hs table a kept ha hkept => ?_⟩
  · exact distinctAddresses_eq_eraseDups fun a ha b hb => hkeys a b (h a ha) (h b hb)
  · have hpasses := Controller.leftBy_passesOn fun table a ha b hb =>
      hkeys a b (h table a ha) (h table b hb)
    obtain ⟨b, hb, hkey, hown⟩ := hs.carried_holds hpasses table _ (Keyed.mem_of_get? hkept)
    obtain rfl := hkeys b a (h table b hb) ha hkey
    exact ⟨hb, hown⟩

def disguisedEndpoint : Address := ⟨"10.0.0.1|rpc=9000|metrics=|peer=|", none, none, none, none, false⟩

theorem disguisedEndpoint_configured (urls : List Char → Except UrlError Url) :
    disguisedEndpoint.Configured urls := by
  have hread : Address.parse urls "10.0.0.1|rpc=9000|metrics=|peer=|" = .ok disguisedEndpoint :=
    rfl
  exact .parsed hread

theorem disguised_endpoint_is_another :
    loneEndpoint.key ≠ disguisedEndpoint.key ∧
    distinctAddresses [loneEndpoint, disguisedEndpoint, loneEndpoint] =
      [loneEndpoint, disguisedEndpoint] ∧
    ∃ kept, (((pairMonitor.run pairController pairWorld id).1.fleet.carried.of .rpc).get?
        loneEndpoint.key) = some kept ∧
      pairController.OwnSamples .rpc loneEndpoint kept := by
  obtain ⟨hkeys, hdistinct, hcarried⟩ := keys_tell_addresses_apart (readUrl_shaped asciiNames)
  have hlone := loneEndpoint_configured (readUrl asciiNames)
  have hdisguised := disguisedEndpoint_configured (readUrl asciiNames)
  refine ⟨fun hkey => ?_, ?_, ?_⟩
  · have hsame := hkeys _ _ hlone hdisguised hkey
    revert hsame
    decide
  · refine (hdistinct _ fun a ha => ?_).trans (by decide)
    simp only [List.mem_cons, List.not_mem_nil, or_false] at ha
    rcases ha with rfl | rfl | rfl
    · exact hlone
    · exact hdisguised
    · exact hlone
  · have hread : Address.parse (readUrl asciiNames) "10.0.0.2" =
        .ok ⟨"10.0.0.2", none, none, none, none, false⟩ := rfl
    have hnode := ((Address.Configured.parsed hread).rpcPort 9000).metricsPort 9184
    have hendpoints : ∀ table, ∀ a ∈ pairController.endpoints.get table, a.Configured (readUrl asciiNames) := by
      intro table a ha
      cases table with
      | rpc => exact List.mem_singleton.mp ha ▸ hlone
      | node => exact List.mem_singleton.mp ha ▸ hnode
      | validator => cases ha
    have hreachable : (pairMonitor.run pairController pairWorld id).1.fleet.Reachable pairController :=
      Monitor.run_reachable (.new _) pairWorld fun _ h => h
    have hkept : (((pairMonitor.run pairController pairWorld id).1.fleet.carried.of .rpc).get?
        loneEndpoint.key).isSome := by decide +kernel
    obtain ⟨kept, hkept⟩ := Option.isSome_iff_exists.mp hkept
    exact ⟨kept, hkept, (hcarried _ hendpoints _ hreachable .rpc _ kept hlone hkept).2⟩

end FleetHealth.Fleet
