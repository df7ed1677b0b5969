/-
# Audits

`AuditUnavailableSlots` against the whole cluster: what a release by audit achieves, and what any
number of audits do to the counter together.

`AuditRule` is the proof rule for one audit.  It asks what the audit may rely on after it has read
the policy and after it has counted the holders, and gives back what holds when the audit returns,
over all its retries.  The two results are two instances of it:

* an audit that returns no error leaves at most as many slots counted as there are holders exactly
  if it has seen the end of the grace window or no slot was counted without a holder
  (`release_by_audit_effective`); inside the window it returns without an error and without a
  repair;
* audits that run at once repair the counter at most once, to the number of holders, and touch
  nothing else (`audits_converge`).
-/
import KubernetesNmstate.Interference
import KubernetesNmstate.Scenario

/-- `countSlotHolders` at time `t`. -/
def World.holdersAt (cfg : Config) (w : World) (t : Time) : ℤ :=
  (w.listing cfg).countP (isSlotHolder w.policy.generation t cfg.staleThreshold)

/-! ## The rule for an audit -/

/-- What has to be shown about an audit: `I` holds before every attempt, `Saw p` after the policy
was read as `p`, `Tested p` after the audit was not deferred, `Counted p n` after `n` holders were
counted, and `Done repaired` at the end.  The monitor may watch the clock readings. -/
structure AuditRule {Φ : Type} (cfg : Config) (R : World → World → Prop)
    (guard : World → Φ → Op → Prop) (next : Φ → Called Api → Φ) (I : World → Φ → Prop)
    (Saw Tested : Policy → World → Φ → Prop) (Counted : Policy → ℤ → World → Φ → Prop)
    (Done : Bool → World → Φ → Prop) : Prop where
  permits : ∀ w φ (o : Op), o.observes = true → guard w φ o
  overlooks : ∀ φ (o : Op) (r : o.Resp), o.observes = true → o ≠ .now → next φ ⟨o, r⟩ = φ
  keeps : ∀ w w' φ, R w w' → I w φ → I w' φ
  keeps_saw : ∀ p w w' φ, R w w' → Saw p w φ → Saw p w' φ
  keeps_tested : ∀ p w w' φ, R w w' → Tested p w φ → Tested p w' φ
  keeps_counted : ∀ p n w w' φ, R w w' → Counted p n w φ → Counted p n w' φ
  read : ∀ w φ, I w φ → Saw w.policy w φ
  untimed : ∀ p w φ, Saw p w φ → p.status.lastUnavailableNodeCountUpdate = none → Tested p w φ
  passed : ∀ p w φ, Saw p w φ →
    graceOver p.status.lastUnavailableNodeCountUpdate w.clock = true →
    Tested p w (next φ ⟨.now, w.clock⟩)
  deferred : ∀ p w φ, Saw p w φ →
    graceOver p.status.lastUnavailableNodeCountUpdate w.clock = false →
    Done false w (next φ ⟨.now, w.clock⟩)
  zero : ∀ p w φ, Tested p w φ → p.count p.generation = 0 → Done false w φ
  retry : ∀ p w φ, Tested p w φ → I w φ
  count : ∀ p w φ, Tested p w φ → Counted p
    ((w.listing cfg).countP (isSlotHolder p.generation w.clock cfg.staleThreshold)) w φ
  enough : ∀ p n w φ, Counted p n w φ → p.count p.generation ≤ n → Done false w φ
  timed : ∀ p n w φ, Counted p n w φ → Counted p n w (next φ ⟨.now, w.clock⟩)
  permits_write : ∀ p n w φ t, Counted p n w φ → n < p.count p.generation →
    guard w φ (.updatePolicyStatus .audit (p.stampCount p.generation n t))
  written : ∀ p n w φ t, Counted p n w φ → n < p.count p.generation →
    p.resourceVersion = w.policy.resourceVersion →
    Done true (w.commitStatus (p.stampCount p.generation n t).status)
      (next φ ⟨.updatePolicyStatus .audit (p.stampCount p.generation n t), .ok ()⟩)
  refused : ∀ p n w φ t e, Counted p n w φ →
    I w (next φ ⟨.updatePolicyStatus .audit (p.stampCount p.generation n t), .error e⟩)

section

variable {Φ : Type} {cfg : Config} {i : NodeName} {R : World → World → Prop}
  {guard : World → Φ → Op → Prop} {next : Φ → Called Api → Φ} {I : World → Φ → Prop}
  {Saw Tested : Policy → World → Φ → Prop} {Counted : Policy → ℤ → World → Φ → Prop}
  {Done : Bool → World → Φ → Prop}

/-- A procedure of the handler of node `i` among changes along `R`. -/
abbrev Guarded {α : Type} (cfg : Config) (i : NodeName) (R : World → World → Prop)
    (guard : World → Φ → Op → Prop) (next : Φ → Called Api → Φ) (p : Proc α)
    (Q : α → World → Φ → Prop) (w : World) (φ : Φ) : Prop :=
  Follows ((clusterEnv cfg i).among R) (Monitor.guarding guard next) p Q w φ

/-- How an audit ends: with no error in `Done`, and with an error, unrepaired, where it began. -/
def AuditEnds (I : World → Φ → Prop) (Done : Bool → World → Φ → Prop) (a : Bool × Except Err Unit)
    (w : World) (φ : Φ) : Prop :=
  (a.2 = .ok () → Done a.1 w φ) ∧ ∀ e, a.2 = .error e → a.1 = false ∧ I w φ

namespace AuditRule

variable (hrule : AuditRule cfg R guard next I Saw Tested Counted Done)

include hrule

/-- An observing call and what follows it. -/
theorem follows_ask {α : Type} {o : Op} {k : o.Resp → Proc α} {Q : α → World → Φ → Prop} {w : World}
    {φ : Φ} (ho : o.observes = true) (hnow : o ≠ .now)
    (h : ∀ w₁ r, R w w₁ → Truthful cfg i w₁ o r → Guarded cfg i R guard next (k r) Q w₁ φ) :
    Guarded cfg i R guard next (ask o >>= k) Q w φ := by
  refine ⟨hrule.permits w φ o ho, ?_⟩
  rintro r w' ⟨w₁, hR, a, hs⟩
  obtain ⟨ht, rfl⟩ := clusterEnv_spec hs
  rw [World.after_of_observes ho]
  show Guarded cfg i R guard next (k r) Q w₁ (next φ ⟨o, r⟩)
  rw [hrule.overlooks φ o r ho hnow]
  exact h w₁ r hR ht

/-- A reading of the clock and what follows it. -/
theorem follows_now {α : Type} {k : Time → Proc α} {Q : α → World → Φ → Prop} {w : World} {φ : Φ}
    (h : ∀ w₁, R w w₁ →
      Guarded cfg i R guard next (k w₁.clock) Q w₁ (next φ ⟨.now, w₁.clock⟩)) :
    Guarded cfg i R guard next (ask .now >>= k) Q w φ := by
  refine ⟨hrule.permits w φ .now rfl, ?_⟩
  rintro r w' ⟨w₁, hR, a, hs⟩
  obtain ⟨ht, hafter⟩ := clusterEnv_spec hs
  obtain rfl : w' = w₁ := hafter
  obtain rfl : r = w'.clock := ht
  exact h w' hR

/-- The deferral test. -/
theorem follows_graceElapsed {p : Policy} {w : World} {φ : Φ} (h : Saw p w φ) :
    Guarded cfg i R guard next (graceElapsed p) (fun elapsed w' φ' =>
      (elapsed = false → Done false w' φ') ∧ (elapsed ≠ false → Tested p w' φ')) w φ := by
  unfold graceElapsed
  split
  · rename_i hlast
    exact ⟨nofun, fun _ => hrule.untimed p w φ h hlast⟩
  · rename_i last hlast
    refine hrule.follows_now fun w₁ hR => ?_
    have hsaw := hrule.keeps_saw p w w₁ φ hR h
    have hgrace : graceOver p.status.lastUnavailableNodeCountUpdate w₁.clock =
        graceOver (some last) w₁.clock := by rw [hlast]
    refine ⟨fun hnot => hrule.deferred p w₁ φ hsaw (hgrace.trans hnot), fun hnot => ?_⟩
    exact hrule.passed p w₁ φ hsaw (hgrace.trans (Bool.eq_true_of_not_eq_false hnot))

/-- One attempt. -/
theorem follows_auditOnce {w : World} {φ : Φ} (hI : I w φ) :
    Guarded cfg i R guard next (auditOnce cfg) (AuditEnds I Done) w φ := by
  refine hrule.follows_ask rfl nofun fun w₁ r hR hread => ?_
  have hI₁ := hrule.keeps w w₁ φ hR hI
  rcases r with e | p
  · exact ⟨nofun, fun _ _ => ⟨rfl, hI₁⟩⟩
  obtain rfl : p = w₁.policy := hread
  refine Follows.bind (hrule.follows_graceElapsed (hrule.read w₁ φ hI₁)) ?_
  rintro elapsed w₂ φ₂ ⟨hdefer, htest⟩
  show Guarded cfg i R guard next (if _ then _ else _) _ w₂ φ₂
  split
  · exact ⟨fun _ => hdefer ‹_›, nofun⟩
  have htested := htest ‹_›
  show Guarded cfg i R guard next (if _ then _ else _) _ w₂ φ₂
  split
  · exact ⟨fun _ => hrule.zero _ w₂ φ₂ htested ‹_›, nofun⟩
  refine hrule.follows_ask rfl nofun fun w₃ r hR₃ hlist => ?_
  have htested₃ := hrule.keeps_tested _ w₂ w₃ φ₂ hR₃ htested
  rcases r with e | ⟨enactments, now⟩
  · exact ⟨nofun, fun _ _ => ⟨rfl, hrule.retry _ w₃ φ₂ htested₃⟩⟩
  obtain ⟨rfl, rfl⟩ := hlist
  have hcounted := hrule.count _ w₃ φ₂ htested₃
  show Guarded cfg i R guard next (if _ then _ else _) _ w₃ φ₂
  split
  · exact ⟨fun _ => hrule.enough _ _ w₃ φ₂ hcounted ‹_›, nofun⟩
  have hlt := Int.not_le.mp ‹_›
  refine hrule.follows_now fun w₄ hR₄ => ?_
  have hcounted₄ := hrule.timed _ _ w₄ φ₂ (hrule.keeps_counted _ _ w₃ w₄ φ₂ hR₄ hcounted)
  refine ⟨hrule.permits_write _ _ w₄ _ _ hcounted₄ hlt, ?_⟩
  rintro r w' ⟨w₅, hR₅, a, hs⟩
  have hcounted₅ := hrule.keeps_counted _ _ w₄ w₅ _ hR₅ hcounted₄
  obtain ⟨ht, rfl⟩ := clusterEnv_spec hs
  rcases r with e | ⟨⟩
  · exact ⟨nofun, fun _ _ => ⟨rfl, hrule.refused _ _ w₅ _ _ e hcounted₅⟩⟩
  · exact ⟨fun _ => hrule.written _ _ w₅ _ _ hcounted₅ hlt ht, nofun⟩

/-- **An audit**, over its retries. -/
theorem follows_auditUnavailableSlots {w : World} {φ : Φ} (hI : I w φ) :
    Guarded cfg i R guard next (auditUnavailableSlots cfg) (AuditEnds I Done) w φ := by
  refine (Follows.retryWith (I := fun b w φ => b = false ∧ I w φ) (Q := Done)
    (R := fun _ _ _ => True) ?_ (by decide) ⟨rfl, hI⟩).mono
    fun a w φ h => ⟨h.1, fun e he => (h.2 e he).1⟩
  rintro b w φ ⟨-, hI⟩
  exact (hrule.follows_auditOnce hI).mono
    fun a w φ h => ⟨h.1, fun e he => ⟨h.2 e he, trivial⟩⟩

/-- The release by audit. -/
theorem follows_releaseUnavailableSlotByAudit {w : World} {φ : Φ} (hI : I w φ) :
    Guarded cfg i R guard next (releaseUnavailableSlotByAudit cfg)
      (fun r w φ => r = .ok () → ∃ repaired, Done repaired w φ) w φ := by
  refine (follows_onError (I := I) (Q := fun w φ => ∃ repaired, Done repaired w φ)
    (R := fun _ _ _ => True) (by decide) ?_ hI).mono fun r w φ h => h.1
  intro w φ hI
  refine (hrule.follows_auditUnavailableSlots hI).bind fun a w φ h => ?_
  exact ⟨fun hok => ⟨a.1, h.1 hok⟩, fun e he => ⟨(h.2 e he).2, trivial⟩⟩

end AuditRule

end

/-! ## A release by audit -/

/-- Nobody writes while the call runs; time passes. -/
def TimePasses (w w' : World) : Prop := ∃ t, w.clock ≤ t ∧ w' = { w with clock := t }

theorem TimePasses.refl (w : World) : TimePasses w w := ⟨w.clock, Nat.le_refl _, rfl⟩

/-- At some time since `start`, every counted slot of the current generation had its holder. -/
def SlotsCovered (cfg : Config) (start : Time) (w : World) : Prop :=
  ∃ t, start ≤ t ∧ t ≤ w.clock ∧ w.policy.count w.policy.generation ≤ w.holdersAt cfg t

theorem holdersAt_nonneg (cfg : Config) (w : World) (t : Time) : 0 ≤ w.holdersAt cfg t :=
  Int.natCast_nonneg _

/-- The holders do not become more by waiting. -/
theorem holdersAt_antitone (cfg : Config) (w : World) {t t' : Time} (h : t ≤ t') :
    w.holdersAt cfg t' ≤ w.holdersAt cfg t := by
  refine Int.ofNat_le.mpr (List.countP_mono_left fun e _ he => ?_)
  simp only [isSlotHolder, decide_eq_true_eq] at he ⊢
  exact ⟨he.1, he.2.imp_left (isLiveHolder_antitone h)⟩

theorem slotsCovered_iff {cfg : Config} {start : Time} {w : World} (hstart : start ≤ w.clock) :
    SlotsCovered cfg start w ↔ w.policy.count w.policy.generation ≤ w.holdersAt cfg start := by
  constructor
  · rintro ⟨t, ht, -, hcount⟩
    exact hcount.trans (holdersAt_antitone cfg w ht)
  · exact fun hcount => ⟨start, Nat.le_refl _, hstart, hcount⟩

/-- Whether the slots are covered does not change by waiting. -/
theorem slotsCovered_later_iff {cfg : Config} {start : Time} {w w' : World}
    (hstart : start ≤ w.clock) (hpasses : TimePasses w w') :
    SlotsCovered cfg start w' ↔ SlotsCovered cfg start w := by
  obtain ⟨t, ht, rfl⟩ := hpasses
  rw [slotsCovered_iff hstart, slotsCovered_iff (hstart.trans ht)]
  rfl

/-- A node whose enactment is no slot holder does not count. -/
theorem holdersAt_setEnactment {cfg : Config} {i : NodeName} {w : World} {status : EnactmentStatus}
    (hstatus : ∀ t, isSlotHolder w.policy.generation t cfg.staleThreshold ⟨i, status⟩ = false)
    (t : Time) :
    (w.setEnactment i (some status)).holdersAt cfg t = (w.setEnactment i none).holdersAt cfg t := by
  simp only [World.holdersAt, World.listing, List.countP_filterMap]
  congr 1
  refine List.countP_congr fun n _ => ?_
  by_cases hn : n = i
  · subst hn
    simp [World.setEnactment, hstatus t]
  · rw [World.setEnactment_of_ne _ _ hn, World.setEnactment_of_ne _ _ hn]
    rfl

/-- A node that has succeeded holds no slot. -/
theorem isSlotHolder_success (generation : Generation) (now t staleThreshold : Time) (i : NodeName)
    (status : EnactmentStatus) (message : String) :
    isSlotHolder generation t staleThreshold ⟨i, { status with
      conditions := Notice.success.setter now status.conditions message }⟩ = false := by
  simp only [isSlotHolder, Notice.isTerminallyFailed_setter, decide_eq_false_iff_not]
  rintro ⟨-, hlive | hfailed⟩
  · have hprogressing := isProgressing_of_isLiveHolder hlive
    rw [Notice.isProgressing_setter] at hprogressing
    cases hprogressing
  · cases hfailed

/-- The grace window since the update `last` was over at a clock reading of the call. -/
def WindowOver (last : Option Time) (tr : List (Called Api)) : Prop :=
  last = none ∨ ∃ t, ⟨.now, t⟩ ∈ tr ∧ graceOver last t = true

/-- Watch the clock readings for the end of the grace window. -/
def readOver (last : Option Time) (past : Bool) : Called Api → Bool
  | ⟨.now, t⟩ => past || graceOver last t
  | _ => past

theorem readOver_of_ne {last : Option Time} {past : Bool} {o : Op} {r : o.Resp} (h : o ≠ .now) :
    readOver last past ⟨o, r⟩ = past := by
  cases o with
  | now => exact absurd rfl h
  | _ => rfl

theorem readOver_eq_true_iff {last : Option Time} {past : Bool} {c : Called Api} :
    readOver last past c = true ↔ past = true ∨ ∃ t, ⟨.now, t⟩ = c ∧ graceOver last t = true := by
  obtain ⟨o, r⟩ := c
  by_cases h : o = .now
  · subst h
    refine Bool.or_eq_true_iff.trans (or_congr_right ⟨fun hr => ⟨r, rfl, hr⟩, ?_⟩)
    rintro ⟨t, ⟨⟩, ht⟩
    exact ht
  · rw [readOver_of_ne h]
    refine ⟨.inl, ?_⟩
    rintro (hpast | ⟨t, ⟨⟩, -⟩)
    · exact hpast
    · exact absurd rfl h

theorem windowOver_iff {last : Option Time} {tr : List (Called Api)} :
    Monitor.after (readOver last) last.isNone tr = true ↔ WindowOver last tr := by
  have hfold : ∀ past : Bool, Monitor.after (readOver last) past tr = true ↔
      past = true ∨ ∃ t, ⟨.now, t⟩ ∈ tr ∧ graceOver last t = true := by
    induction tr with
    | nil => simp [Monitor.after]
    | cons c tr ih =>
      intro past
      refine (ih (readOver last past c)).trans ?_
      rw [readOver_eq_true_iff, or_assoc]
      simp only [List.mem_cons, or_and_right, exists_or]
  rw [hfold, Option.isNone_iff_eq_none]
  rfl

section

variable {cfg : Config} {i : NodeName} {w₀ : World} {start : Time}

/-- The cluster is as in `w₀`; the window is over if a clock reading since `start` was after its
end. -/
structure Unwritten (w₀ : World) (start : Time) (w : World) (past : Bool) : Prop where
  policy : w.policy = w₀.policy
  enactments : w.enactments = w₀.enactments
  clock : start ≤ w.clock
  elapsed : past = true → graceOver w₀.policy.status.lastUnavailableNodeCountUpdate w.clock = true
  untimed : w₀.policy.status.lastUnavailableNodeCountUpdate = none → past = true

theorem Unwritten.later {w w' : World} {past : Bool} (h : Unwritten w₀ start w past)
    (hpasses : TimePasses w w') : Unwritten w₀ start w' past := by
  obtain ⟨t, ht, rfl⟩ := hpasses
  exact ⟨h.policy, h.enactments, Nat.le_trans h.clock ht,
    fun ho => graceOver_mono ht (h.elapsed ho), h.untimed⟩

theorem Unwritten.read {w : World} {past : Bool} (h : Unwritten w₀ start w past) :
    Unwritten w₀ start w
      (readOver w₀.policy.status.lastUnavailableNodeCountUpdate past ⟨.now, w.clock⟩) := by
  refine ⟨h.policy, h.enactments, h.clock, fun ho => ?_,
    fun hnone => Bool.or_eq_true_iff.mpr (.inl (h.untimed hnone))⟩
  rcases Bool.or_eq_true_iff.mp ho with ho | ho
  · exact h.elapsed ho
  · exact ho

theorem Unwritten.holdersAt {w : World} {past : Bool} (h : Unwritten w₀ start w past) (t : Time) :
    w.holdersAt cfg t = w₀.holdersAt cfg t := by
  simp only [World.holdersAt, World.listing, h.policy, h.enactments]

/-- How a release by audit ends: after the grace window with every counted slot held, and inside it
with nothing changed. -/
def Released (cfg : Config) (w₀ : World) (start : Time) (w : World) (past : Bool) : Prop :=
  past = true ∧ SlotsCovered cfg start w ∨ past = false ∧ Unwritten w₀ start w past

/-- The rule for an audit while nobody else writes: the policy it reads is the only version
there is. -/
theorem auditRule_timePasses (cfg : Config) (w₀ : World) (start : Time) :
    AuditRule cfg TimePasses (fun _ _ _ => True)
      (readOver w₀.policy.status.lastUnavailableNodeCountUpdate)
      (Unwritten w₀ start)
      (fun p w past => p = w₀.policy ∧ Unwritten w₀ start w past)
      (fun p w past => p = w₀.policy ∧ Unwritten w₀ start w past ∧ past = true)
      (fun p n w past => (p = w₀.policy ∧ Unwritten w₀ start w past ∧ past = true) ∧
        ∃ t, start ≤ t ∧ t ≤ w.clock ∧ n = w.holdersAt cfg t)
      (fun _ w past => Released cfg w₀ start w past) where
  permits _ _ _ _ := trivial
  overlooks _ _ _ _ hnow := readOver_of_ne hnow
  keeps w w' past h hw := hw.later h
  keeps_saw p w w' past h hsaw := ⟨hsaw.1, hsaw.2.later h⟩
  keeps_tested p w w' past h htested := ⟨htested.1, htested.2.1.later h, htested.2.2⟩
  keeps_counted := by
    rintro p n w w' past ⟨t', ht', rfl⟩ ⟨⟨hp, hw, hpast⟩, t, hstart, ht, rfl⟩
    exact ⟨⟨hp, hw.later ⟨t', ht', rfl⟩, hpast⟩, t, hstart, Nat.le_trans ht ht', rfl⟩
  read w past hw := ⟨hw.policy, hw⟩
  untimed := by
    rintro p w past ⟨rfl, hw⟩ hlast
    exact ⟨rfl, hw, hw.untimed hlast⟩
  passed := by
    rintro p w past ⟨rfl, hw⟩ hgrace
    exact ⟨rfl, hw.read, Bool.or_eq_true_iff.mpr (.inr hgrace)⟩
  deferred := by
    rintro p w past ⟨rfl, hw⟩ hnot
    refine .inr ⟨?_, hw.read⟩
    cases past with
    | false => exact hnot
    | true => exact absurd (hw.elapsed rfl) (by rw [hnot]; decide)
  zero := by
    rintro p w past ⟨rfl, hw, hpast⟩ hzero
    refine .inl ⟨hpast, (slotsCovered_iff hw.clock).mpr ?_⟩
    rw [hw.policy, hzero]
    exact holdersAt_nonneg cfg w start
  retry p w past htested := htested.2.1
  count := by
    rintro p w past ⟨rfl, hw, hpast⟩
    refine ⟨⟨rfl, hw, hpast⟩, w.clock, hw.clock, Nat.le_refl _, ?_⟩
    rw [World.holdersAt, hw.policy]
  enough := by
    rintro p n w past ⟨⟨rfl, hw, hpast⟩, t, hstart, ht, rfl⟩ hle
    exact .inl ⟨hpast, t, hstart, ht, hw.policy ▸ hle⟩
  timed := by
    rintro p n w past ⟨⟨rfl, hw, rfl⟩, hcount⟩
    exact ⟨⟨rfl, hw.read, rfl⟩, hcount⟩
  permits_write _ _ _ _ _ _ _ := trivial
  written := by
    rintro p n w past now ⟨⟨rfl, hw, hpast⟩, t, hstart, ht, rfl⟩ - -
    refine .inl ⟨hpast, t, hstart, ht, ?_⟩
    show (w₀.policy.stampCount w₀.policy.generation _ now).count w.policy.generation ≤ _
    rw [hw.policy, Policy.count_stampCount]
    exact Int.le_refl _
  refused p n w past t e hcounted := hcounted.1.2.1

theorem Released.clock {w : World} {past : Bool} (h : Released cfg w₀ start w past) :
    start ≤ w.clock := by
  rcases h with ⟨-, t, hstart, ht, -⟩ | ⟨-, hw⟩
  · exact hstart.trans ht
  · exact hw.clock

/-- What a release by audit achieves. -/
theorem Released.covered_iff {w : World} {past : Bool} (h : Released cfg w₀ start w past) :
    SlotsCovered cfg start w ↔ past = true ∨
      w₀.policy.count w₀.policy.generation ≤ w₀.holdersAt cfg start := by
  rcases h with ⟨rfl, hcovered⟩ | ⟨rfl, hw⟩
  · exact ⟨fun _ => .inl rfl, fun _ => hcovered⟩
  · rw [slotsCovered_iff hw.clock, hw.policy, hw.holdersAt]
    simp

/-- A procedure of the handler of node `i` while nobody else writes, watching for the end of the
grace window. -/
abbrev Alone {α : Type} (cfg : Config) (i : NodeName) (last : Option Time) (p : Proc α)
    (Q : α → World → Bool → Prop) (w : World) (past : Bool) : Prop :=
  Guarded cfg i TimePasses (fun _ _ _ => True) (readOver last) p Q w past

theorem Alone.exec {α : Type} {last : Option Time} {p : Proc α} {Q : α → World → Bool → Prop}
    {w w' : World} {tr : List (Called Api)} {a : α} (h : Alone cfg i last p Q w last.isNone)
    (hx : Exec ((clusterEnv cfg i).among TimePasses) p w tr a w') :
    ∃ past, (past = true ↔ WindowOver last tr) ∧ Q a w' past := by
  have h : Follows ((clusterEnv cfg i).among TimePasses)
    (Monitor.observer World (readOver last)) p Q w last.isNone := h
  exact ⟨_, windowOver_iff, h.exec hx⟩

/-- Before the first clock reading. -/
theorem unwritten_isNone (w : World) : Unwritten w w.clock w
    w.policy.status.lastUnavailableNodeCountUpdate.isNone := by
  refine ⟨rfl, rfl, Nat.le_refl _, fun hnone => ?_, Option.isNone_iff_eq_none.mpr⟩
  rw [Option.isNone_iff_eq_none.mp hnone]
  rfl

variable {last : Option Time} {w : World} {past : Bool}
  (hlast : w₀.policy.status.lastUnavailableNodeCountUpdate = last) (hw : Unwritten w₀ start w past)

include hlast hw

theorem alone_release :
    Alone cfg i last (releaseUnavailableSlotByAudit cfg)
      (fun r w' past' => r = .ok () → Released cfg w₀ start w' past') w past := by
  subst hlast
  exact ((auditRule_timePasses cfg w₀ start).follows_releaseUnavailableSlotByAudit hw).mono
    fun _ _ _ h hok => (h hok).elim fun _ h => h

theorem alone_releaseAvailable :
    Alone cfg i last (releaseAvailable cfg)
      (fun outcome w' past' => outcome = ({}, none) → Released cfg w₀ start w' past') w past := by
  refine Follows.bind (alone_release hlast hw) ?_
  rintro (e | _) w' past' h
  · exact nofun
  · exact fun _ => h rfl

/-- `NotifySuccess` takes the node out of the slot holders. -/
theorem alone_notifySuccess :
    Alone cfg i last notifySuccess (fun r w' past' => r = .ok () →
      w'.policy = w₀.policy ∧ (∀ t, w'.holdersAt cfg t = (w₀.setEnactment i none).holdersAt cfg t) ∧
      Unwritten w' start w' past') w past := by
  subst hlast
  have hrule := auditRule_timePasses cfg w₀ start
  refine (follows_onError (I := Unwritten w₀ start) (R := fun _ _ _ => True) (by decide) ?_ hw).mono
    fun r w φ h => h.1
  intro w past hw
  refine hrule.follows_ask rfl nofun fun w₁ r hR₁ _ => ?_
  have hw₁ := hw.later hR₁
  rcases r with e | status
  · exact ⟨nofun, fun _ _ => ⟨hw₁, trivial⟩⟩
  refine hrule.follows_now fun w₂ hR₂ => ⟨trivial, ?_⟩
  have hw₂ := (hw₁.later hR₂).read
  rintro r w' ⟨w₃, hR₃, a, hs⟩
  have hw₃ := hw₂.later hR₃
  obtain ⟨-, rfl⟩ := clusterEnv_spec hs
  rcases r with e | ⟨⟩
  · exact ⟨nofun, fun _ _ => ⟨hw₃, trivial⟩⟩
  · refine ⟨fun _ => ⟨hw₃.policy, fun t => ?_, ⟨rfl, rfl, hw₃.clock, ?_, ?_⟩⟩, nofun⟩
    · refine (holdersAt_setEnactment (fun t => ?_) t).trans ?_
      · exact isSlotHolder_success ..
      · simp only [World.holdersAt, World.listing, World.setEnactment, hw₃.policy, hw₃.enactments]
    · rw [World.after, World.setEnactment, hw₃.policy]
      exact hw₃.elapsed
    · rw [World.after, World.setEnactment, hw₃.policy]
      exact hw₃.untimed

theorem alone_finalizeInterruptedApply :
    Alone cfg i last (finalizeInterruptedApply cfg) (fun outcome w' past' => outcome = ({}, none) →
      (SlotsCovered cfg start w' ↔ past' = true ∨ w₀.policy.count w₀.policy.generation ≤
        (w₀.setEnactment i none).holdersAt cfg start)) w past := by
  refine Follows.bind (alone_notifySuccess hlast hw) ?_
  rintro (e | _) w₁ past₁ hnotified
  · exact nofun
  obtain ⟨hpolicy, hholders, hw₁⟩ := hnotified rfl
  refine Follows.bind (alone_release (hpolicy ▸ hlast) hw₁) ?_
  rintro (e | _) w₂ past₂ h
  · exact nofun
  subst hlast
  refine (auditRule_timePasses cfg w₀ start).follows_ask rfl nofun fun w₃ _ hpasses _ => ?_
  intro _
  rw [← hpolicy, ← hholders, ← (h rfl).covered_iff]
  exact slotsCovered_later_iff (h rfl).clock hpasses

end

/-- **A release by audit is effective** exactly if it has seen the end of the grace window of the
last counter update, or no slot was counted without a holder before: only then, when
`releaseUnavailableSlotByAudit` returns no error, or one of its callers ends without asking for
another reconcile, at most as many slots of the current generation are counted as there were
holders. -/
theorem release_by_audit_effective (cfg : Config) (i : NodeName) (w : World) :
    (∀ tr w', Exec ((clusterEnv cfg i).among TimePasses) (releaseUnavailableSlotByAudit cfg) w tr
      (.ok ()) w' → (SlotsCovered cfg w.clock w' ↔
        WindowOver w.policy.status.lastUnavailableNodeCountUpdate tr ∨
        w.policy.count w.policy.generation ≤ w.holdersAt cfg w.clock)) ∧
    (∀ tr w', Exec ((clusterEnv cfg i).among TimePasses) (releaseAvailable cfg) w tr
      ({}, none) w' → (SlotsCovered cfg w.clock w' ↔
        WindowOver w.policy.status.lastUnavailableNodeCountUpdate tr ∨
        w.policy.count w.policy.generation ≤ w.holdersAt cfg w.clock)) ∧
    (∀ tr w', Exec ((clusterEnv cfg i).among TimePasses) (finalizeInterruptedApply cfg) w tr
      ({}, none) w' → (SlotsCovered cfg w.clock w' ↔
        WindowOver w.policy.status.lastUnavailableNodeCountUpdate tr ∨
        w.policy.count w.policy.generation ≤ (w.setEnactment i none).holdersAt cfg w.clock)) := by
  refine ⟨fun tr w' hx => ?_, fun tr w' hx => ?_, fun tr w' hx => ?_⟩
  · obtain ⟨past, hpast, h⟩ := Alone.exec (alone_release rfl (unwritten_isNone w)) hx
    rw [← hpast]
    exact (h rfl).covered_iff
  · obtain ⟨past, hpast, h⟩ := Alone.exec (alone_releaseAvailable rfl (unwritten_isNone w)) hx
    rw [← hpast]
    exact (h rfl).covered_iff
  · obtain ⟨past, hpast, h⟩ :=
      Alone.exec (alone_finalizeInterruptedApply rfl (unwritten_isNone w)) hx
    rw [← hpast]
    exact h rfl

/-- The cluster of `freshSys` where node01 is done and its slot is still counted, since an update
at time 1000. -/
def countedWorld (clock : Time) : World :=
  { freshSys.world with
    policy := { onePolicy with
      status := {
        unavailableNodeCountMap := [(1, 1)], lastUnavailableNodeCountUpdate := some 1000 } }
    enactments := fun n => if n = "node01" then
      some { policyGeneration := 1, conditions := setSuccess 1000 [] "successfully reconciled" }
      else none
    clock := clock }

/-- Right after a counter update the audit defers: no error, and a slot counted that nobody
holds. -/
theorem release_by_audit_deferred : ∃ cfg i w status tr w',
    w.enactments i = some status ∧ isAvailable status.conditions = true ∧
    Exec ((clusterEnv cfg i).among TimePasses) (releaseUnavailableSlotByAudit cfg) w tr (.ok ())
      w' ∧
    ¬ SlotsCovered cfg w.clock w' := by
  obtain ⟨tr, r, w', hx, hP⟩ := exists_served twoNodes "node01" granted
    (releaseUnavailableSlotByAudit twoNodes) (countedWorld 1000)
    (fun _ r w' => r.isOk && w'.clock = 1000 && w'.policy.count w'.policy.generation = 1 &&
      w'.holdersAt twoNodes 1000 = 0) (by decide +kernel)
  simp only [Bool.and_eq_true, decide_eq_true_eq] at hP
  obtain ⟨⟨⟨hr, hclock⟩, hcount⟩, hholders⟩ := hP
  rcases r with e | ⟨⟩
  · cases hr
  refine ⟨twoNodes, "node01", countedWorld 1000, _, tr, w', rfl, rfl, hx.among TimePasses.refl, ?_⟩
  rintro ⟨t, hstart, ht, hle⟩
  obtain rfl : t = 1000 := Nat.le_antisymm (hclock ▸ ht) hstart
  rw [hcount, hholders] at hle
  exact absurd hle (by decide)

/-- Half a minute later the audit repairs the counter. -/
theorem release_by_audit_effective_node01 : ∃ tr w',
    Exec ((clusterEnv twoNodes "node01").among TimePasses) (releaseUnavailableSlotByAudit twoNodes)
      (countedWorld 1030) tr (.ok ()) w' ∧
    (countedWorld 1030).holdersAt twoNodes 1030 < (countedWorld 1030).policy.count 1 ∧
    WindowOver (some 1000) tr ∧ SlotsCovered twoNodes 1030 w' := by
  obtain ⟨tr, r, w', hx, hP⟩ := exists_served twoNodes "node01" granted
    (releaseUnavailableSlotByAudit twoNodes) (countedWorld 1030)
    (fun tr r _ => r.isOk && Monitor.after (readOver (some 1000)) false tr) (by decide +kernel)
  obtain ⟨hr, hover⟩ := Bool.and_eq_true_iff.mp hP
  rcases r with e | ⟨⟩
  · cases hr
  have hx := hx.among TimePasses.refl
  have hover : WindowOver (some 1000) tr := windowOver_iff.mp hover
  exact ⟨tr, w', hx, by decide, hover,
    ((release_by_audit_effective twoNodes "node01" (countedWorld 1030)).1 tr w' hx).mpr
      (.inl hover)⟩

/-! ## Many audits -/

/-- What happens beside the audits: time passes, and no heartbeat crosses the staleness
threshold. -/
structure Idle (cfg : Config) (w w' : World) : Prop where
  policy : w'.policy = w.policy
  older : w'.older = w.older
  enactments : w'.enactments = w.enactments
  clock : w.clock ≤ w'.clock
  live : ∀ e ∈ w.listing cfg, isLiveHolder e.status.conditions w'.clock cfg.staleThreshold =
    isLiveHolder e.status.conditions w.clock cfg.staleThreshold

/-- What an audit puts up with: later versions of the policy, of the same generation and with as
many holders. -/
structure Undisturbed (cfg : Config) (w w' : World) : Prop where
  policy : w.policy.Precedes w'.policy
  generation : w'.policy.generation = w.policy.generation
  holders : w'.holdersAt cfg w'.clock = w.holdersAt cfg w.clock

/-- The count that the committed update of an audit left, if it has made one. -/
def repairedTo (left : Option ℤ) : Called Api → Option ℤ
  | ⟨.updatePolicyStatus _ q, .ok ()⟩ => some (q.count q.generation)
  | _ => left

/-- The calls of an audit of generation `g` with `h` holders: it lowers the entry of `g` to `h` in
a version it has read. -/
def Auditing (g : Generation) (h : ℤ) (w : World) (_ : Option ℤ) : Op → Prop
  | .updatePolicyStatus _ q => ∃ (p : Policy) (t : Time),
      p.Precedes w.policy ∧ p.generation = g ∧ h < p.count g ∧ q = p.stampCount g h t
  | o => o.observes = true

/-- The generation and its number of holders. -/
def Stands (cfg : Config) (g : Generation) (h : ℤ) (w : World) : Prop :=
  w.policy.generation = g ∧ w.holdersAt cfg w.clock = h

section

variable {cfg : Config} {i : NodeName} {g : Generation} {h : ℤ} {w w' : World}

theorem Undisturbed.refl (cfg : Config) (w : World) : Undisturbed cfg w w := ⟨.refl _, rfl, rfl⟩

theorem Undisturbed.trans {w'' : World} (h₁ : Undisturbed cfg w w') (h₂ : Undisturbed cfg w' w'') :
    Undisturbed cfg w w'' :=
  ⟨h₁.policy.trans h₂.policy, h₂.generation.trans h₁.generation, h₂.holders.trans h₁.holders⟩

theorem Idle.undisturbed (hidle : Idle cfg w w') : Undisturbed cfg w w' := by
  refine ⟨hidle.policy ▸ .refl _, by rw [hidle.policy], ?_⟩
  have hlisting : w'.listing cfg = w.listing cfg := by
    simp only [World.listing, hidle.enactments]
  simp only [World.holdersAt, hlisting, hidle.policy]
  congr 1
  refine List.countP_congr fun e he => ?_
  simp only [isSlotHolder, hidle.live e he]

theorem Stands.later (hw : Stands cfg g h w) (hR : Undisturbed cfg w w') : Stands cfg g h w' :=
  ⟨hR.generation.trans hw.1, hR.holders.trans hw.2⟩

/-- The rule for an audit among others: what it has counted stays true, and its update is refused
unless the version it has read is still the newest. -/
theorem auditRule_undisturbed (cfg : Config) (g : Generation) (h : ℤ) :
    AuditRule cfg (Undisturbed cfg) (Auditing g h) repairedTo (fun w _ => Stands cfg g h w)
      (fun p w _ => Stands cfg g h w ∧ p.Precedes w.policy ∧ p.generation = g)
      (fun p w _ => Stands cfg g h w ∧ p.Precedes w.policy ∧ p.generation = g)
      (fun p n w _ => (Stands cfg g h w ∧ p.Precedes w.policy ∧ p.generation = g) ∧ n = h)
      (fun repaired _ left => repaired = true → left = some h) where
  permits w φ o ho := by
    cases o <;> first
      | exact ho
      | cases ho
  overlooks φ o r ho _ := by
    cases o <;> first
      | rfl
      | cases ho
  keeps w w' φ hR hw := hw.later hR
  keeps_saw p w w' φ hR := fun ⟨hw, hp, hg⟩ => ⟨hw.later hR, hp.trans hR.policy, hg⟩
  keeps_tested p w w' φ hR := fun ⟨hw, hp, hg⟩ => ⟨hw.later hR, hp.trans hR.policy, hg⟩
  keeps_counted p n w w' φ hR := fun ⟨⟨hw, hp, hg⟩, hn⟩ =>
    ⟨⟨hw.later hR, hp.trans hR.policy, hg⟩, hn⟩
  read w φ hw := ⟨hw, .refl _, hw.1⟩
  untimed p w φ hsaw _ := hsaw
  passed p w φ hsaw _ := hsaw
  timed p n w φ hcounted := hcounted
  retry p w φ htested := htested.1
  count := by
    rintro p w φ ⟨hw, hp, rfl⟩
    refine ⟨⟨hw, hp, rfl⟩, ?_⟩
    rw [← hw.1, ← hw.2]
    rfl
  deferred p w φ _ _ := nofun
  zero p w φ _ _ := nofun
  enough p n w φ _ _ := nofun
  permits_write := by
    rintro p n w φ t ⟨⟨-, hp, rfl⟩, rfl⟩ hlt
    exact ⟨p, t, hp, rfl, hlt, rfl⟩
  written := by
    rintro p n w φ t ⟨⟨-, -, rfl⟩, rfl⟩ - - -
    exact congrArg some (Policy.count_stampCount p p.generation n t)
  refused p n w φ t e hcounted := hcounted.1.1

/-- **What a call of an audit does**: nothing, or it lowers the entry to the number of holders. -/
theorem auditing_cases {φ : Option ℤ} {o : Op} {r : o.Resp} (hguard : Auditing g h w φ o)
    (hs : (clusterEnv cfg i).serve w o r w') :
    w' = w ∧ repairedTo φ ⟨o, r⟩ = φ ∨
    ∃ t, w' = w.commitStatus (w.policy.stampCount g h t).status ∧ h < w.policy.count g ∧
      repairedTo φ ⟨o, r⟩ = some h := by
  obtain ⟨a, hs⟩ := hs
  obtain ⟨ht, rfl⟩ := clusterEnv_spec hs
  by_cases hwrite : ∃ caller q, o = .updatePolicyStatus caller q
  · obtain ⟨caller, q, rfl⟩ := hwrite
    obtain ⟨p, t, hp, rfl, hlt, rfl⟩ := hguard
    rcases r with e | ⟨⟩
    · exact .inl ⟨rfl, rfl⟩
    · -- the update is not refused, so the version that was read is the newest
      obtain rfl := hp.eq_of_resourceVersion ht
      exact .inr ⟨t, rfl, hlt, congrArg some (Policy.count_stampCount _ _ _ _)⟩
  · left
    cases o with
    | updatePolicyStatus caller q => exact absurd ⟨caller, q, rfl⟩ hwrite
    | _ => first
      | exact ⟨rfl, rfl⟩
      | cases hguard

end

/-- Audits that share the cluster, each with the count its repair left. -/
abbrev AuditPool (ι : Type) : Type := Pool Api World (Option ℤ) (Bool × Except Err Unit) ι

/-- Before the first call of any audit. -/
def auditPool (ι : Type) (cfg : Config) (w : World) : AuditPool ι where
  world := w
  progs := fun _ => auditUnavailableSlots cfg
  ghosts := fun _ => none

section

variable {ι : Type} {cfg : Config} {node : ι → NodeName} {g : Generation} {h : ℤ}

/-- The audits take turns, each from its own node, and nothing else happens. -/
abbrev AuditRun [DecidableEq ι] (cfg : Config) (node : ι → NodeName) :
    AuditPool ι → AuditPool ι → Prop :=
  Pool.Reach (fun i => clusterEnv cfg (node i)) (Idle cfg) repairedTo

/-- Every audit of the pool is one of generation `g` with `h` holders. -/
abbrev AuditsOf (cfg : Config) (node : ι → NodeName) (g : Generation) (h : ℤ) (s : AuditPool ι) :
    Prop :=
  s.Follow (fun i => clusterEnv cfg (node i)) (Undisturbed cfg) (Auditing g h) repairedTo
    fun a _ left => a.1 = true → left = some h

theorem stable_auditing : Stable (S := Api) (α := Bool × Except Err Unit) (Undisturbed cfg)
    (Auditing g h) (fun a _ left => a.1 = true → left = some h) where
  refl := Undisturbed.refl cfg
  trans _ _ _ h₁ h₂ := h₁.trans h₂
  guard w w₁ φ o hR hguard := by
    cases o with
    | updatePolicyStatus caller q =>
      obtain ⟨p, t, hp, hrest⟩ := hguard
      exact ⟨p, t, hp.trans hR.policy, hrest⟩
    | _ => exact hguard
  post _ _ _ _ _ hQ := hQ

theorem auditsOf_auditPool (cfg : Config) (node : ι → NodeName) (w : World) :
    AuditsOf cfg node w.policy.generation (w.holdersAt cfg w.clock) (auditPool ι cfg w) := by
  intro i
  refine ((auditRule_undisturbed cfg _ _).follows_auditUnavailableSlots ⟨rfl, rfl⟩).mono ?_
  rintro ⟨repaired, e | ⟨⟩⟩ w' left hends
  · intro hrepaired
    exact absurd ((hends.2 e rfl).1.symm.trans hrepaired) (by decide)
  · exact hends.1 rfl

/-- **Rule for pools of audits.**  An invariant of the cluster and the repairs has to survive idle
time and repairs. -/
theorem audits_invariant [DecidableEq ι] {J : World → (ι → Option ℤ) → Prop} {s₀ s : AuditPool ι}
    (haudits : AuditsOf cfg node g h s₀) (hJ : J s₀.world s₀.ghosts)
    (hidle : ∀ w w' ghosts, J w ghosts → Idle cfg w w' → J w' ghosts)
    (hrepair : ∀ w ghosts i t, J w ghosts → h < w.policy.count g →
      J (w.commitStatus (w.policy.stampCount g h t).status) (Function.update ghosts i (some h)))
    (hrun : AuditRun cfg node s₀ s) : AuditsOf cfg node g h s ∧ J s.world s.ghosts := by
  refine Pool.invariant (J := fun s => J s.world s.ghosts) stable_auditing
    (fun w w' h => h.undisturbed) ?_ haudits hJ (fun s w hJ h => hidle _ _ _ hJ h) ?_ hrun
  · intro i w φ o r w' hguard hs
    rcases auditing_cases hguard hs with ⟨rfl, -⟩ | ⟨t, rfl, -, -⟩
    · exact .refl cfg _
    · exact ⟨.inr (Nat.lt_succ_self _), rfl, rfl⟩
  · intro s i o k r w hJ hguard hs
    rcases auditing_cases hguard hs with ⟨rfl, hleft⟩ | ⟨t, rfl, hlt, hleft⟩
    · simpa only [Pool.answered, hleft, Function.update_eq_self] using hJ
    · simpa only [Pool.answered, hleft] using hrepair _ _ i t hJ hlt

/-- The counter is as it was, or one audit has repaired it. -/
inductive Repair (w₀ : World) (h : ℤ) (w : World) (ghosts : ι → Option ℤ) : Prop where
  | untouched (hversions : w.versions = w₀.versions) (hghosts : ∀ i, ghosts i = none)
  | repaired (i : ι) (hlt : h < w₀.policy.count w₀.policy.generation)
      (hcount : w.policy.count w₀.policy.generation = h)
      (hother : ∀ g, g ≠ w₀.policy.generation → w.policy.count g = w₀.policy.count g)
      (hconditions : w.policy.status.conditions = w₀.policy.status.conditions)
      (hi : ghosts i = some h) (hghosts : ∀ j, j ≠ i → ghosts j = none)

theorem Repair.idle {w₀ w w' : World} {ghosts : ι → Option ℤ} (hrepair : Repair w₀ h w ghosts)
    (hidle : Idle cfg w w') : Repair w₀ h w' ghosts := by
  cases hrepair with
  | untouched hversions hghosts =>
    refine .untouched ?_ hghosts
    rw [← hversions, World.versions, World.versions, hidle.policy, hidle.older]
  | repaired i hlt hcount hother hconditions hi hghosts =>
    rw [← hidle.policy] at hcount hother hconditions
    exact .repaired i hlt hcount hother hconditions hi hghosts

theorem Repair.commit [DecidableEq ι] {w₀ w : World} {ghosts : ι → Option ℤ}
    (hrepair : Repair w₀ h w ghosts) (i : ι) (t : Time)
    (hlt : h < w.policy.count w₀.policy.generation) :
    Repair w₀ h (w.commitStatus (w.policy.stampCount w₀.policy.generation h t).status)
      (Function.update ghosts i (some h)) := by
  cases hrepair with
  | untouched hversions hghosts =>
    have hpolicy : w.policy = w₀.policy := (List.cons.inj hversions).1
    rw [hpolicy] at hlt ⊢
    refine .repaired i hlt (Policy.count_stampCount _ _ _ _)
      (fun g hg => Policy.count_stampCount_of_ne _ _ _ hg) rfl (Function.update_self ..) ?_
    intro j hj
    rw [Function.update_of_ne hj]
    exact hghosts j
  | repaired j _ hcount =>
    -- there is nothing left to lower
    rw [hcount] at hlt
    exact absurd hlt (Int.lt_irrefl h)

/-- At every moment the counter is as it was or repaired once. -/
theorem repair_of_run [DecidableEq ι] {w₀ : World} {s : AuditPool ι}
    (hrun : AuditRun cfg node (auditPool ι cfg w₀) s) :
    AuditsOf cfg node w₀.policy.generation (w₀.holdersAt cfg w₀.clock) s ∧
      Repair w₀ (w₀.holdersAt cfg w₀.clock) s.world s.ghosts :=
  audits_invariant (auditsOf_auditPool cfg node w₀) (.untouched rfl fun _ => rfl)
    (fun _ _ _ hJ hidle => hJ.idle hidle) (fun _ _ i t hJ hlt => hJ.commit i t hlt) hrun

/-- The counter never rises. -/
theorem count_le_of_run [DecidableEq ι] {s s' : AuditPool ι} (haudits : AuditsOf cfg node g h s)
    (hrun : AuditRun cfg node s s') : s'.world.policy.count g ≤ s.world.policy.count g := by
  refine (audits_invariant (J := fun w _ => w.policy.count g ≤ s.world.policy.count g) haudits
    (Int.le_refl _) (fun w w' _ hJ hidle => hidle.policy ▸ hJ) ?_ hrun).2
  intro w _ i t hJ hlt
  show (w.policy.stampCount g h t).count g ≤ _
  rw [Policy.count_stampCount]
  omega

/-- An audit that has returned that it repaired the counter has. -/
theorem AuditsOf.repaired {s : AuditPool ι} (haudits : AuditsOf cfg node g h s) {i : ι}
    {result : Except Err Unit} (hi : s.progs i = .ret (true, result)) : s.ghosts i = some h := by
  have hend := haudits i
  rw [hi] at hend
  exact hend rfl

theorem Repair.eq_of_repaired {w₀ w : World} {ghosts : ι → Option ℤ}
    (hrepair : Repair w₀ h w ghosts) {i j : ι} (hi : ghosts i = some h)
    (hj : ghosts j = some h) : i = j := by
  cases hrepair with
  | untouched _ hghosts =>
    rw [hghosts i] at hi
    cases hi
  | repaired k _ _ _ _ _ hghosts =>
    have honly : ∀ {i}, ghosts i = some h → i = k := by
      intro i hi
      by_contra hne
      rw [hghosts i hne] at hi
      cases hi
    exact (honly hi).trans (honly hj).symm

end

/-- **Audits converge.**  However many audits of a policy take turns, while nothing else happens
and no heartbeat crosses the staleness threshold: the counter of the current generation never
rises and is never lowered below the number of holders; an audit that reports a repair has left
exactly this number, and at most one does; a counter that is not above it is never written; the
other entries and the conditions of the policy stay. -/
theorem audits_converge {ι : Type} [DecidableEq ι] {cfg : Config} {node : ι → NodeName} {w₀ : World}
    {s s' : AuditPool ι} (hrun : AuditRun cfg node (auditPool ι cfg w₀) s)
    (hrun' : AuditRun cfg node s s') :
    let g := w₀.policy.generation
    let h := w₀.holdersAt cfg w₀.clock
    s'.world.policy.count g ≤ s.world.policy.count g ∧
    min (w₀.policy.count g) h ≤ s'.world.policy.count g ∧
    (∀ i result, s'.progs i = .ret (true, result) → s'.ghosts i = some h) ∧
    (∀ i j result result', s'.progs i = .ret (true, result) → s'.progs j = .ret (true, result') →
      i = j) ∧
    (w₀.policy.count g ≤ h → s'.world.versions = w₀.versions) ∧
    (∀ g', g' ≠ g → s'.world.policy.count g' = w₀.policy.count g') ∧
    s'.world.policy.status.conditions = w₀.policy.status.conditions := by
  obtain ⟨haudits, -⟩ := repair_of_run hrun
  obtain ⟨haudits', hrepair⟩ := repair_of_run (hrun.trans hrun')
  refine ⟨count_le_of_run haudits hrun', ?_, fun i result hi => haudits'.repaired hi,
    fun i j _ _ hi hj => hrepair.eq_of_repaired (haudits'.repaired hi) (haudits'.repaired hj), ?_⟩
  · cases hrepair with
    | untouched hversions _ =>
      rw [(List.cons.inj hversions).1]
      exact Int.min_le_left _ _
    | repaired _ _ hcount =>
      rw [hcount]
      exact Int.min_le_right _ _
  · cases hrepair with
    | untouched hversions _ =>
      have hpolicy := (List.cons.inj hversions).1
      exact ⟨fun _ => hversions, fun g' _ => by rw [hpolicy], by rw [hpolicy]⟩
    | repaired _ hlt _ hother hconditions =>
      exact ⟨fun hle => absurd hlt (Int.not_lt.mpr hle), hother, hconditions⟩

/-- Two audits of the cluster in which nobody holds the counted slot; the one from node01 runs
first and repairs the counter. -/
theorem audits_converge_two :
    ∃ (node : Bool → NodeName) (s : AuditPool Bool) (result : Except Err Unit),
    AuditRun twoNodes node (auditPool Bool twoNodes (countedWorld 1030)) s ∧
    s.progs true = .ret (true, result) ∧ s.ghosts true = some 0 ∧
    s.world.policy.count 1 ≤ (countedWorld 1030).policy.count 1 := by
  obtain ⟨tr, ⟨repaired, result⟩, w', hx, hP⟩ := exists_served twoNodes "node01" granted
    (auditUnavailableSlots twoNodes) (countedWorld 1030) (fun _ a _ => a.1) (by decide +kernel)
  obtain rfl : repaired = true := hP
  have hrun : AuditRun twoNodes (fun b => if b then "node01" else "node02")
      (auditPool Bool twoNodes (countedWorld 1030)) _ := Pool.reach_of_exec (i := true) hx
  obtain ⟨hle, -, hleft, -⟩ := audits_converge .refl hrun
  have hends := Function.update_self true (.ret (true, result) : Proc (Bool × Except Err Unit))
    (auditPool Bool twoNodes (countedWorld 1030)).progs
  exact ⟨_, _, result, hrun, hends, hleft true result hends, hle⟩
