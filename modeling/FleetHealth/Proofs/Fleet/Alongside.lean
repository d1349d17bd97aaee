import FleetHealth.Fleet.Polling

/-! # Hosts polled side by side

Two hosts may differ in something that no call looks at. Then their calls are the same, and
if they get the same answers, they leave hosts that differ in the same thing, whatever the
time that each has spent already.
-/
namespace FleetHealth.Fleet

open Clock Exposition Gateway Net

namespace Effort

def add (a b : Effort) : Effort := ⟨a.calls + b.calls, a.elapsed + b.elapsed⟩

theorem none_add (e : Effort) : none.add e = e := by
  simp [add, none]

theorem add_call (a b : Effort) : a.add b.call = (a.add b).call := rfl

theorem add_wait (a b : Effort) (elapsed : Nat) : a.add (b.wait elapsed) = (a.add b).wait elapsed := by
  simp [add, wait, Nat.add_assoc]

end Effort

structure TaskContext.AnswersAlike (c c' : TaskContext) : Prop where
  now : c'.now = c.now
  rpc : ∀ url method, c'.policy.run method.name (c'.gateways.rpc url method) =
    c.policy.run method.name (c.gateways.rpc url method)
  scrape : ∀ url series, c'.policy.run "metrics scrape" (c'.gateways.scrape url series) =
    c.policy.run "metrics scrape" (c.gateways.scrape url series)

/-- A relation between hosts that polling keeps and does not see. -/
structure Unseen (R : Host → Host → Prop) : Prop where
  same {h h' : Host} (related : R h h') : h'.table = h.table ∧ h'.address = h.address ∧
    h'.rpcUrl = h.rpcUrl ∧ h'.metricsUrl = h.metricsUrl
  note {h h' : Host} (related : R h h') (message : String) : R (h.note message) (h'.note message)
  ingest {h h' : Host} (related : R h h') (kind : MetricKind) (value : WireValue) (now : Instant) :
    Option.Rel R (h.settle? (h.metrics.ingest kind value now))
      (h'.settle? (h'.metrics.ingest kind value now))
  ingestScraped {h h' : Host} (related : R h h') (kind : MetricKind) (series : Scraped)
    (now : Instant) : Option.Rel R (h.settle? (h.metrics.ingestScraped kind series now))
      (h'.settle? (h'.metrics.ingestScraped kind series now))

variable {R : Host → Host → Prop} {spent : Effort} {p p' : Polling} {c c' : TaskContext}

/-- Two hosts being polled, the second after some time. -/
structure Alongside (R : Host → Host → Prop) (spent : Effort) (p p' : Polling) : Prop where
  host : R p.host p'.host
  attempted : p'.attempted = p.attempted
  failures : p'.failures = p.failures
  effort : p'.effort = spent.add p.effort

inductive EndAlongside (R : Host → Host → Prop) (spent : Effort) :
    Except Effort Polling → Except Effort Polling → Prop
  | died (e : Effort) : EndAlongside R spent (.error e) (.error (spent.add e))
  | went {p p' : Polling} (both : Alongside R spent p p') : EndAlongside R spent (.ok p) (.ok p')

theorem EndAlongside.bind {r r' : Except Effort Polling}
    {next next' : Polling → Except Effort Polling} (h : EndAlongside R spent r r')
    (hnext : ∀ p p', Alongside R spent p p' → EndAlongside R spent (next p) (next' p')) :
    EndAlongside R spent (r >>= next) (r' >>= next') := by
  cases h with
  | died e => exact .died e
  | went both => exact hnext _ _ both

namespace Alongside

theorem start {h h' : Host} (related : R h h') (effort : Effort) :
    Alongside R spent (.start h effort) (.start h' (spent.add effort)) := ⟨related, rfl, rfl, rfl⟩

theorem attempt (hR : Unseen R) (h : Alongside R spent p p') {α : Type} (ends : CallEnd α)
    {take : α → Host → Option Host}
    (htake : ∀ value, Option.Rel R (take value p.host) (take value p'.host)) :
    EndAlongside R spent (p.attempt ends take) (p'.attempt ends take) := by
  have hcalled : p'.call.effort = spent.add p.call.effort := by
    change p'.effort.call = spent.add p.effort.call
    rw [h.effort, Effort.add_call]
  have hattempted : p'.call.attempted = p.call.attempted := congrArg (· + 1) h.attempted
  have hwaited : ∀ elapsed, (p'.call.wait elapsed).effort = spent.add (p.call.wait elapsed).effort := by
    intro elapsed
    change p'.call.effort.wait elapsed = spent.add (p.call.effort.wait elapsed)
    rw [hcalled, Effort.add_wait]
  cases ends with
  | died =>
    unfold Polling.attempt
    rw [hcalled]
    exact .died _
  | returned elapsed result =>
    cases result with
    | error e =>
      refine .went ⟨hR.note h.host e.message, hattempted, ?_, hwaited elapsed⟩
      exact congrArg (· ++ [e]) h.failures
    | ok value =>
      have htaken := htake value
      unfold Polling.attempt
      dsimp only
      generalize take value p.host = taken at htaken ⊢
      generalize take value p'.host = taken' at htaken ⊢
      cases htaken with
      | none =>
        dsimp only
        rw [hwaited]
        exact .died _
      | some related => exact .went ⟨related, hattempted, h.failures, hwaited elapsed⟩

theorem callKind (hR : Unseen R) (hc : c.AnswersAlike c') (h : Alongside R spent p p')
    (url : String) (kind : MetricKind) :
    EndAlongside R spent (Fleet.callKind c url p kind) (Fleet.callKind c' url p' kind) := by
  unfold Fleet.callKind
  cases kind.rpcMethod? with
  | none => exact .went h
  | some method =>
    dsimp only
    rw [hc.rpc, hc.now]
    exact h.attempt hR _ fun value => hR.ingest h.host kind _ c.now

theorem foldlM_callKind (hR : Unseen R) (hc : c.AnswersAlike c') (h : Alongside R spent p p')
    (url : String) (kinds : List MetricKind) :
    EndAlongside R spent (kinds.foldlM (Fleet.callKind c url) p)
      (kinds.foldlM (Fleet.callKind c' url) p') := by
  induction kinds generalizing p p' with
  | nil => exact .went h
  | cons kind rest ih =>
    rw [List.foldlM_cons, List.foldlM_cons]
    exact (h.callKind hR hc url kind).bind fun _ _ both => ih both

theorem callAll (hR : Unseen R) (hc : c.AnswersAlike c') (h : Alongside R spent p p') :
    EndAlongside R spent (Fleet.callAll c p) (Fleet.callAll c' p') := by
  obtain ⟨htable, -, hurl, -⟩ := hR.same h.host
  unfold Fleet.callAll
  rw [htable, hurl]
  cases p.host.rpcUrl with
  | none => exact .went h
  | some url => exact h.foldlM_callKind hR hc url _

end Alongside

theorem Unseen.takeSeries (hR : Unseen R) {h h' : Host} (related : R h h') (page : Keyed Scraped)
    (now : Instant) (kind : MetricKind) :
    Option.Rel R (Fleet.takeSeries page now h kind) (Fleet.takeSeries page now h' kind) := by
  unfold Fleet.takeSeries
  cases page.get? kind.name with
  | none => exact .some (hR.note related _)
  | some series => exact hR.ingestScraped related kind series now

theorem Unseen.foldlM_takeSeries (hR : Unseen R) {h h' : Host} (related : R h h')
    (page : Keyed Scraped) (now : Instant) (kinds : List MetricKind) :
    Option.Rel R (kinds.foldlM (Fleet.takeSeries page now) h)
      (kinds.foldlM (Fleet.takeSeries page now) h') := by
  induction kinds generalizing h h' with
  | nil => exact .some related
  | cons kind rest ih =>
    rw [List.foldlM_cons, List.foldlM_cons]
    have hfirst := hR.takeSeries related page now kind
    generalize Fleet.takeSeries page now h kind = first at hfirst ⊢
    generalize Fleet.takeSeries page now h' kind = first' at hfirst ⊢
    cases hfirst with
    | none => exact .none
    | some related => exact ih related

theorem Alongside.scrapeAll (hR : Unseen R) (hc : c.AnswersAlike c') (h : Alongside R spent p p') :
    EndAlongside R spent (Fleet.scrapeAll c p) (Fleet.scrapeAll c' p') := by
  obtain ⟨htable, -, -, hurl⟩ := hR.same h.host
  unfold Fleet.scrapeAll
  rw [htable, hurl]
  cases p.host.metricsUrl with
  | none => exact .went h
  | some url =>
    dsimp only
    rw [hc.scrape, hc.now]
    exact h.attempt hR _ fun page => hR.foldlM_takeSeries h.host page c.now _

/-- All calls for one host go as those for the other. -/
theorem populate_alongside (hR : Unseen R) (hc : c.AnswersAlike c') {h h' : Host}
    (related : R h h') (effort : Effort) :
    EndAlongside R spent (populate c h effort) (populate c' h' (spent.add effort)) :=
  ((Alongside.start related effort).callAll hR hc).bind fun _ _ both => both.scrapeAll hR hc

/-- Either both hosts are lost, for the same reason, or none is. -/
theorem Alongside.outcome (hR : Unseen R) (h : Alongside R spent p p') :
    (∃ e, p.outcome = .error e ∧ p'.outcome = .error e) ∨
      (p.outcome = .ok p.host ∧ p'.outcome = .ok p'.host) := by
  obtain ⟨-, haddress, -, -⟩ := hR.same h.host
  unfold Polling.outcome
  rw [h.failures, h.attempted, haddress]
  cases p.failures with
  | nil => exact .inr ⟨rfl, rfl⟩
  | cons first rest =>
    dsimp only
    split
    · exact .inl ⟨_, rfl, rfl⟩
    · exact .inr ⟨rfl, rfl⟩

end FleetHealth.Fleet
