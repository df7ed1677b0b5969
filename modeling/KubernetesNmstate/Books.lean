/-
# The books of one node

For one generation `g` that does not change: what is known about a node's enactment and its
handler at any time (`Books`), and what counts as holding a slot (`holdsSlot`).

A node holds a slot from the committed claim on: while the claim is not shown by the
enactment, while the enactment is marked for an apply, while the slot of a finished apply is
not released, and for good once the retries are exhausted.  Whether an enactment that is marked
for an apply counts may depend on its heartbeat; `alive` decides that.

`holdsSlot_of_exec` and `holdsSlot_exec` say how a call of the node's own handler changes this:
only a claim makes a node a holder, and only a release ends it.
-/
import KubernetesNmstate.Slots

/-! ## The books -/

/-- The retries of the generation `g` are used up. -/
def worn (cfg : Config) (g : Generation) (e : EnactmentStatus) : Bool :=
  0 < e.retryCount.get g ∧ cfg.retriesUntilFail ≤ e.retryCount.get g

/-- The enactment is terminally failed for `g` because its apply retries were exhausted. -/
def exhausted (cfg : Config) (g : Generation) (e : EnactmentStatus) : Bool :=
  e.policyGeneration = g ∧ isTerminallyFailed e.conditions = true ∧ worn cfg g e = true

/-- What holds of every stored enactment. -/
structure Booked (cfg : Config) (g : Generation) (e : EnactmentStatus) : Prop where
  nonneg : 0 ≤ e.retryCount.get g
  phased : Phased e.conditions
  /-- Nothing of the generation has happened before the enactment is at it. -/
  untouched : e.policyGeneration ≠ g →
    isProgressing e.conditions = false ∧ e.retryCount.get g = 0
  /-- With the retries used up an apply is unfinished, or the enactment has failed. -/
  failing : worn cfg g e = true → isDone e.conditions = false ∧
    (isProgressing e.conditions = true ∨ isTerminallyFailed e.conditions = true)

/-- What the phase of the handler says about the enactment. -/
def NodeView.InOrder (cfg : Config) (g : Generation) (v : NodeView) : Prop :=
  match v.phase with
  | .initialized _ previous | .rendered _ previous _ => isRetrying previous = true →
      ∀ e, v.own = some e → e.policyGeneration = g ∧ isProgressing e.conditions = true
  | .filled _ previous => ∀ e, v.own = some e → e.policyGeneration = g ∧
      (isRetrying previous = true → isDone e.conditions = false →
        isProgressing e.conditions = true)
  | .claimed key => key = g ∧ ∃ e, v.own = some e ∧ e.policyGeneration = g ∧
      isProgressing e.conditions = false ∧ Startable cfg e
  | .marked key | .applied key => key = g ∧ 0 < cfg.retriesUntilFail ∧
      ∃ e, v.own = some e ∧ e.policyGeneration = g ∧ worn cfg g e = false
  | .applyFailed key => key = g ∧ 0 < cfg.retriesUntilFail
  | .finalizing key => key = g ∧ ∃ e, v.own = some e ∧ e.policyGeneration = g ∧
      isFinalizing e.conditions = true
  | _ => True

/-- The books of one node are in order. -/
structure Books (cfg : Config) (g : Generation) (v : NodeView) : Prop where
  stored : ∀ e, v.own = some e → Booked cfg g e
  inOrder : v.InOrder cfg g

section

variable {cfg : Config} {g : Generation}

theorem worn_iff {e : EnactmentStatus} : worn cfg g e = true ↔
    0 < e.retryCount.get g ∧ cfg.retriesUntilFail ≤ e.retryCount.get g := by
  simp [worn]

theorem Startable.not_worn {e : EnactmentStatus} (h : Startable cfg e)
    (hg : e.policyGeneration = g) : worn cfg g e = false := by
  refine Bool.eq_false_iff.mpr fun hw => ?_
  have hlt := h.retries
  have hle := (worn_iff.mp hw).2
  rw [hg] at hlt
  omega

/-- A node that can start is allowed at least one attempt. -/
theorem Startable.pos {e : EnactmentStatus} (h : Startable cfg e) (hb : Booked cfg g e)
    (hg : e.policyGeneration = g) : 0 < cfg.retriesUntilFail := by
  have hlt := h.retries
  have hle := hb.nonneg
  rw [hg] at hlt
  omega

theorem Booked.of_progressing {e : EnactmentStatus} (h : Booked cfg g e)
    (hprog : isProgressing e.conditions = true) : e.policyGeneration = g := by
  by_contra hne
  rw [(h.untouched hne).1] at hprog
  cases hprog

/-- An enactment without conditions and retries. -/
theorem Booked.blank {e : EnactmentStatus} (hprog : isProgressing e.conditions = false)
    (hr : e.retryCount.get g = 0) : Booked cfg g e where
  nonneg := by omega
  phased _ := hprog
  untouched _ := ⟨hprog, hr⟩
  failing hw := by
    have hpos := (worn_iff.mp hw).1
    omega

/-- Recording the generation keeps the books: it drops conditions only when nothing of the
generation has happened. -/
theorem Booked.reset {e e' : EnactmentStatus} (h : Booked cfg g e)
    (hg : e'.policyGeneration = g) (hr : e'.retryCount = e.retryCount)
    (hc : e'.conditions = (resetPolicyGeneration e g).conditions) : Booked cfg g e' := by
  by_cases heq : e.policyGeneration = g
  · rw [conditions_resetPolicyGeneration_of_eq heq] at hc
    refine ⟨hr ▸ h.nonneg, hc ▸ h.phased, fun hne => absurd hg hne, fun hw => ?_⟩
    rw [hc]
    exact h.failing (by simpa only [worn, hr] using hw)
  · rw [conditions_resetPolicyGeneration_of_ne heq] at hc
    exact .blank (by rw [hc]; rfl) (by rw [hr]; exact (h.untouched heq).2)

/-- A notification keeps the books if it declares no success with the retries used up and
keeps a worn enactment failed or in progress. -/
theorem Booked.setter {e : EnactmentStatus} (h : Booked cfg g e) {n : Notice} {t : Time}
    {message : String} (hg : e.policyGeneration = g ∨ n.marksProgressing = false)
    (hw : worn cfg g e = true → n.marksProgressing = true ∧ n ≠ .finalizing ∨
      n.marksFailed = true) :
    Booked cfg g { e with conditions := n.setter t e.conditions message } where
  nonneg := h.nonneg
  phased := Phased.setter n t e.conditions message
  untouched hne := by
    rw [Notice.isProgressing_setter]
    exact ⟨hg.resolve_left hne, (h.untouched hne).2⟩
  failing hworn := by
    rw [isDone_setter, Notice.isProgressing_setter, Notice.isTerminallyFailed_setter]
    rcases hw hworn with ⟨hprog, hfin⟩ | hfail
    · refine ⟨decide_eq_false ?_, Or.inl hprog⟩
      rintro (rfl | rfl)
      · cases hprog
      · exact hfin rfl
    · refine ⟨decide_eq_false ?_, Or.inr hfail⟩
      rintro (rfl | rfl) <;> cases hfail

theorem Booked.interrupted {e : EnactmentStatus} (h : Booked cfg g e) (happ : Applying e)
    (t : Time) : Booked cfg g (interruptedStatus e.policyGeneration t e) := by
  refine .blank (by rw [interruptedStatus, Notice.isProgressing_setter]; rfl) ?_
  rw [h.of_progressing happ.progressing, interruptedStatus]
  split
  · rfl
  · exact CountMap.get_put_self _ _ _

theorem Booked.retryCount {e : EnactmentStatus} (h : Booked cfg g e) (happ : Applying e) :
    Booked cfg g { e with
      retryCount := e.retryCount.put e.policyGeneration
        (e.retryCount.get e.policyGeneration + 1) } where
  nonneg := by
    have hnonneg := h.nonneg
    rw [h.of_progressing happ.progressing, CountMap.get_put_self]
    omega
  phased := h.phased
  untouched hne := absurd (h.of_progressing happ.progressing) hne
  failing _ := ⟨happ.not_done h.phased, Or.inl happ.progressing⟩

/-- The phase with the conditions before stays right about an enactment of the generation. -/
theorem NodeView.InOrder.filled_of_done {v : NodeView} {p : Policy} {previous : ConditionList}
    {e : EnactmentStatus} (hph : v.phase = .filled p previous) (hown : v.own = some e)
    (hg : e.policyGeneration = g)
    (hwhy : isRetrying previous = false ∨ isDone e.conditions = true) : v.InOrder cfg g := by
  unfold NodeView.InOrder
  rw [hph]
  intro e' he'
  obtain rfl : e = e' := Option.some.inj (hown.symm.trans he')
  refine ⟨hg, fun hretry hdone => ?_⟩
  rcases hwhy with h | h
  · rw [h] at hretry
    cases hretry
  · rw [h] at hdone
    cases hdone

end

section

variable {cfg : Config} {i : NodeName} {g : Generation}

/-- A notification keeps the books. -/
theorem Books.notice {v : NodeView} (h : Books cfg g v) {e : EnactmentStatus} {n : Notice}
    {t : Time} {message : String} {log : List Event} (hown : v.own = some e)
    (hn : n.Allowed cfg v.phase e) :
    Books cfg g ⟨v.versions, some { e with conditions := n.setter t e.conditions message },
      n.phaseAfter v.phase e, log⟩ := by
  have hb := h.stored e hown
  have horder := h.inOrder
  unfold NodeView.InOrder at horder
  -- a node that asks for a slot has its enactment at the generation
  have hasked : Asking cfg v.phase e → e.policyGeneration = g ∧ worn cfg g e = false := by
    intro hask
    obtain ⟨p, previous, hph, -⟩ := hask.filled
    rw [hph] at horder
    have hg := (horder e hown).1
    exact ⟨hg, hask.startable.not_worn hg⟩
  have hkeep : Asking cfg v.phase e → NodeView.InOrder cfg g
      ⟨v.versions, some { e with conditions := n.setter t e.conditions message }, v.phase,
        log⟩ := by
    intro hask
    obtain ⟨p, previous, hph, hretry⟩ := hask.filled
    exact .filled_of_done hph rfl (hasked hask).1 (Or.inl hretry)
  have hsame : ∀ e', some e' = some { e with conditions := n.setter t e.conditions message } →
      Booked cfg g { e with conditions := n.setter t e.conditions message } → Booked cfg g e' :=
    fun e' he' hb' => by rwa [Option.some.inj he']
  cases n with
  | progressing =>
    obtain ⟨hstart, hwhere⟩ := hn
    have hg : e.policyGeneration = g := by
      rcases hwhere with hph | ⟨p, previous, hph, -⟩ <;> rw [hph] at horder
      · exact horder.1
      · exact (horder e hown).1
    have hnot := hstart.not_worn hg
    refine ⟨fun e' he' => hsame e' he'.symm (hb.setter (Or.inl hg) fun hw => ?_),
      hg, hstart.pos hb hg, _, rfl, hg, hnot⟩
    rw [hnot] at hw
    cases hw
  | finalizing =>
    rw [hn.1] at horder
    obtain ⟨hg, -, e', he', -, hnot⟩ := horder
    obtain rfl : e = e' := Option.some.inj (hown.symm.trans he')
    refine ⟨fun e' he' => hsame e' he'.symm (hb.setter (Or.inl hg) fun hw => ?_),
      hg, _, rfl, hg, ?_⟩
    · rw [hnot] at hw
      cases hw
    · rw [Notice.isFinalizing_setter]
      rfl
  | retrying =>
    have hg : e.policyGeneration = g := by
      rw [hn.1] at horder
      exact horder.1
    refine ⟨fun e' he' => hsame e' he'.symm (hb.setter (Or.inl hg) fun _ =>
      Or.inl ⟨rfl, nofun⟩), ?_⟩
    show NodeView.InOrder cfg g ⟨_, _, v.phase, _⟩
    rw [hn.1] at horder ⊢
    exact horder
  | generateFailure =>
    obtain ⟨p, hph⟩ := hn
    refine ⟨fun e' he' => hsame e' he'.symm (hb.setter (Or.inr rfl) fun _ => Or.inr rfl), ?_⟩
    show NodeView.InOrder cfg g ⟨_, _, v.phase, _⟩
    rw [hph]
    trivial
  | failedToConfigure =>
    refine ⟨fun e' he' => hsame e' he'.symm (hb.setter (Or.inr rfl) fun _ => Or.inr rfl), ?_⟩
    rcases hn with hask | ⟨hph, -⟩
    · exact hkeep hask
    · show NodeView.InOrder cfg g ⟨_, _, v.phase, _⟩
      rw [hph] at horder ⊢
      exact horder
  | pending =>
    refine ⟨fun e' he' => hsame e' he'.symm (hb.setter (Or.inr rfl) fun hw => ?_), hkeep hn⟩
    rw [(hasked hn).2] at hw
    cases hw
  | aborted =>
    refine ⟨fun e' he' => hsame e' he'.symm (hb.setter (Or.inr rfl) fun hw => ?_), hkeep hn⟩
    rw [(hasked hn).2] at hw
    cases hw
  | success =>
    obtain ⟨hfin, hwhere⟩ := hn
    refine ⟨fun e' he' => hsame e' he'.symm (hb.setter (Or.inr rfl) fun hw => ?_), ?_⟩
    · have hdone := (hb.failing hw).1
      simp [isDone, hfin] at hdone
    · show NodeView.InOrder cfg g ⟨_, _, v.phase, _⟩
      rcases hwhere with hph | hph | ⟨p, previous, hph⟩
      · rw [hph]
        trivial
      · rw [hph]
        trivial
      · refine .filled_of_done hph rfl ?_ (Or.inr ?_)
        · exact hb.of_progressing (isProgressing_of_isFinalizing hfin)
        · rw [isDone_setter]
          rfl
  | interrupted => exact hn.elim

/-- **Every call of the handler keeps the books in order.** -/
theorem Books.exec {s : Sys} {a : Answer} {o : Op} {r : o.Resp} {w : World} {φ : Ghost}
    {evs : List Event} (hs : Sound cfg s) (hgen : ∀ p ∈ s.world.versions, p.generation = g)
    (h : Books cfg g (s.node i)) (hx : Executes cfg s i a o r w φ evs) :
    Books cfg g ⟨w.versions, w.enactments i, φ.phase, evs ++ s.log⟩ := by
  have hbasis := hs.basis i
  have heff := hx.effect
  generalize φ.phase = ph at heff ⊢
  have horder := h.inOrder
  unfold NodeView.InOrder Sys.node at horder
  have hone : ∀ {e' : EnactmentStatus}, Booked cfg g e' →
      ∀ e, some e' = some e → Booked cfg g e := fun hb e he => by rwa [← Option.some.inj he]
  cases heff with
  | quiet => exact h
  | looked hp hph => exact ⟨h.stored, trivial⟩
  | found hown hph =>
    rename_i p e
    refine ⟨h.stored, fun hretry e' he' => ?_⟩
    obtain rfl : e = e' := Option.some.inj (hown.symm.trans he')
    have hprog := isProgressing_of_isRetrying hretry
    exact ⟨(h.stored e hown).of_progressing hprog, hprog⟩
  | nothingHeld hheld hp hcount => exact ⟨h.stored, trivial⟩
  | rendered hph =>
    rw [hph] at horder
    exact ⟨h.stored, horder⟩
  | unrendered hph => exact ⟨h.stored, trivial⟩
  | claim hown hask hp hrv hcap =>
    rename_i e q t
    obtain ⟨p, previous, hph, -⟩ := hask.filled
    rw [hph] at horder
    have hg := (horder e hown).1
    exact ⟨h.stored, hg, e, hown, hg, hask.notProgressing, hask.startable⟩
  | release hheld hp hrv hpos => exact ⟨h.stored, trivial⟩
  | audit hp hrv hl hdue hlt => exact ⟨h.stored, h.inOrder⟩
  | update hp hrv hl hnodes hpods => exact ⟨h.stored, h.inOrder⟩
  | reset hp hrv => exact ⟨h.stored, h.inOrder⟩
  | create hown hph =>
    rw [World.setEnactment_self, hph]
    exact ⟨hone (.blank rfl rfl), trivial⟩
  | delete hph =>
    rw [World.setEnactment_self, hph]
    exact ⟨fun e he => (by cases he), trivial⟩
  | firstStatus hown hph =>
    rw [World.setEnactment_self, hph]
    exact ⟨hone (.blank rfl rfl), trivial⟩
  | resetGeneration hown hph =>
    rename_i e p
    rw [hph] at hbasis
    rw [World.setEnactment_self, (hbasis p rfl).generation_eq hgen]
    exact ⟨hone ((h.stored e hown).reset rfl rfl rfl), trivial⟩
  | fill hown hph hvlan =>
    rename_i e p previous generated desired captured features
    rw [hph] at horder hbasis
    have hpg : p.generation = g := (hbasis p rfl).generation_eq hgen
    rw [World.setEnactment_self, hpg]
    refine ⟨hone ((h.stored e hown).reset rfl rfl rfl), fun e' he' => ?_⟩
    obtain rfl := Option.some.inj he'
    refine ⟨rfl, fun hretry _ => ?_⟩
    obtain ⟨hg, hprog⟩ := horder hretry e hown
    rw [filledStatus, conditions_resetPolicyGeneration_of_eq hg]
    exact hprog
  | notice hown hn =>
    rw [World.setEnactment_self]
    exact h.notice hown hn
  | interrupted hown hph happ =>
    rw [World.setEnactment_self, hph]
    exact ⟨hone ((h.stored _ hown).interrupted happ _), trivial⟩
  | retryCount hown hph happ =>
    rw [World.setEnactment_self]
    rw [hph] at horder ⊢
    exact ⟨hone ((h.stored _ hown).retryCount happ), horder⟩
  | applied hown hph happ =>
    rw [hph] at horder
    exact ⟨h.stored, horder⟩
  | applyFailed hown hph happ =>
    rw [hph] at horder
    exact ⟨h.stored, horder.1, horder.2.1⟩

/-- Along every run at the generation `g` that begins with enactments nothing has happened
to. -/
theorem Books.reach {ok : Sys → Label → Prop} {s₀ s : Sys} (h₀ : Initial s₀)
    (hg : ∀ p ∈ s₀.world.versions, p.generation = g) (hok : ∀ s l, ok s l → l.edits = false)
    (hfresh : ∀ e, s₀.world.enactments i = some e → Booked cfg g e) (h : Reach cfg ok s₀ s) :
    Books cfg g (s.node i) := by
  have hgens := h.with_invariant fun s hs => hs.generation_eq h₀ hok hg
  refine hgens.node_induct h₀.sound ?_ ?_ ?_ ?_
  · refine ⟨hfresh, ?_⟩
    unfold NodeView.InOrder Sys.node
    rw [h₀.rests.ghosts i]
    trivial
  · exact fun v versions evs hv _ _ => ⟨hv.stored, hv.inOrder⟩
  · intro v ph hv hph
    rcases hph with rfl | rfl <;> exact ⟨hv.stored, trivial⟩
  · exact fun s a o r w φ evs hs hv hok hx => hv.exec hs hok.2 hx

end

/-! ## Holding a slot -/

/-- A slot of `g` is held that the enactment does not show. -/
def Phase.reserves (g : Generation) : Phase → Bool
  | .claimed key | .finalizing key => key = g
  | _ => false

/-- The enactment shows that a slot of `g` is held: it is marked for an apply and counts as
alive, or its retries are exhausted. -/
def occupies (cfg : Config) (g : Generation) (alive : ConditionList → Bool)
    (e : EnactmentStatus) : Bool :=
  e.policyGeneration = g ∧ isProgressing e.conditions = true ∧
      isFinalizing e.conditions = false ∧ alive e.conditions = true ∨ exhausted cfg g e = true

/-- The node holds a slot of `g`. -/
def holdsSlot (cfg : Config) (g : Generation) (alive : ConditionList → Bool)
    (v : NodeView) : Bool :=
  v.phase.reserves g || v.own.any (occupies cfg g alive)

section

variable {cfg : Config} {i : NodeName} {g : Generation} {alive : ConditionList → Bool}

theorem Phase.reserves_iff {ph : Phase} :
    ph.reserves g = true ↔ ph = .claimed g ∨ ph = .finalizing g := by
  cases ph <;> simp [Phase.reserves]

theorem occupies_iff {e : EnactmentStatus} : occupies cfg g alive e = true ↔
    e.policyGeneration = g ∧ Applying e ∧ alive e.conditions = true ∨
      exhausted cfg g e = true := by
  unfold occupies
  rw [decide_eq_true_iff]
  constructor
  · rintro (⟨hg, hprog, hfin, hal⟩ | h)
    · exact Or.inl ⟨hg, ⟨hprog, hfin⟩, hal⟩
    · exact Or.inr h
  · rintro (⟨hg, ⟨hprog, hfin⟩, hal⟩ | h)
    · exact Or.inl ⟨hg, hprog, hfin, hal⟩
    · exact Or.inr h

theorem exhausted_iff {e : EnactmentStatus} : exhausted cfg g e = true ↔
    e.policyGeneration = g ∧ isTerminallyFailed e.conditions = true ∧ worn cfg g e = true := by
  simp [exhausted]

theorem holdsSlot_iff {v : NodeView} : holdsSlot cfg g alive v = true ↔
    v.phase.reserves g = true ∨ ∃ e, v.own = some e ∧ occupies cfg g alive e = true := by
  rw [holdsSlot, Bool.or_eq_true, Option.any_eq_true]

/-- An enactment that is neither progressing nor failed shows no slot. -/
theorem not_occupies {e : EnactmentStatus} (hprog : isProgressing e.conditions = false)
    (hfail : isTerminallyFailed e.conditions = false ∨ worn cfg g e = false) :
    occupies cfg g alive e = false := by
  refine Bool.eq_false_iff.mpr fun h => ?_
  rcases occupies_iff.mp h with ⟨-, happ, -⟩ | hex
  · exact not_applying_of_not_progressing hprog happ
  · obtain ⟨-, hterm, hw⟩ := exhausted_iff.mp hex
    rcases hfail with hf | hf
    · rw [hf] at hterm
      cases hterm
    · rw [hf] at hw
      cases hw

theorem occupies_of_applying {e : EnactmentStatus} (hg : e.policyGeneration = g)
    (happ : Applying e) (hal : alive e.conditions = true) : occupies cfg g alive e = true :=
  occupies_iff.mpr (Or.inl ⟨hg, happ, hal⟩)

/-- A write that records the generation does not make an enactment show a slot. -/
theorem occupies_of_reset {e e' : EnactmentStatus} (h : occupies cfg g alive e' = true)
    (hr : e'.retryCount = e.retryCount)
    (hc : e'.conditions = (resetPolicyGeneration e g).conditions) :
    occupies cfg g alive e = true := by
  rcases occupies_iff.mp h with ⟨-, happ, hal⟩ | hex
  · obtain ⟨hg, happ'⟩ := applying_reset happ hc
    rw [conditions_resetPolicyGeneration_of_eq hg] at hc
    exact occupies_of_applying hg happ' (hc ▸ hal)
  · obtain ⟨-, hterm, hw⟩ := exhausted_iff.mp hex
    by_cases hg : e.policyGeneration = g
    · rw [conditions_resetPolicyGeneration_of_eq hg] at hc
      refine occupies_iff.mpr (Or.inr (exhausted_iff.mpr ⟨hg, hc ▸ hterm, ?_⟩))
      simpa only [worn, hr] using hw
    · rw [conditions_resetPolicyGeneration_of_ne hg] at hc
      rw [hc] at hterm
      cases hterm

/-- A node that asks for a slot holds none. -/
theorem Books.not_holds_of_asking {v : NodeView} (h : Books cfg g v)
    (alive : ConditionList → Bool) {e : EnactmentStatus} (hown : v.own = some e)
    (hask : Asking cfg v.phase e) : holdsSlot cfg g alive v = false := by
  obtain ⟨p, previous, hph, -⟩ := hask.filled
  have horder := h.inOrder
  unfold NodeView.InOrder at horder
  rw [hph] at horder
  have hnot : occupies cfg g alive e = false :=
    not_occupies hask.notProgressing (Or.inr (hask.startable.not_worn (horder e hown).1))
  rw [holdsSlot, hph, hown]
  simpa [Phase.reserves] using hnot

/-- A slot is released only by a handler whose enactment does not show it. -/
theorem Books.not_occupies_of_held {v : NodeView} (h : Books cfg g v)
    (alive : ConditionList → Bool) {key : Generation}
    (hph : v.phase = .finalizing key ∨ v.phase = .claimed key) :
    key = g ∧ v.own.any (occupies cfg g alive) = false := by
  have horder := h.inOrder
  unfold NodeView.InOrder at horder
  rcases hph with hph | hph <;> rw [hph] at horder
  · obtain ⟨hkey, e, hown, hg, hfin⟩ := horder
    refine ⟨hkey, ?_⟩
    rw [hown, Option.any_some]
    refine Bool.eq_false_iff.mpr fun hocc => ?_
    rcases occupies_iff.mp hocc with ⟨-, happ, -⟩ | hex
    · rw [happ.notFinalizing] at hfin
      cases hfin
    · have hdone := ((h.stored e hown).failing (exhausted_iff.mp hex).2.2).1
      simp [isDone, hfin] at hdone
  · obtain ⟨hkey, e, hown, hg, hnot, hstart⟩ := horder
    refine ⟨hkey, ?_⟩
    rw [hown, Option.any_some]
    exact not_occupies hnot (Or.inr (hstart.not_worn hg))

/-- A notification does not make a node hold a slot. -/
theorem Books.holdsSlot_of_notice {v : NodeView} (hb : Books cfg g v) {e : EnactmentStatus}
    {n : Notice} {t : Time} {message : String} {versions : List Policy} {log : List Event}
    (hown : v.own = some e) (hn : n.Allowed cfg v.phase e)
    (hlive : v.phase ≠ .reclaiming → isProgressing e.conditions = true →
      alive e.conditions = true)
    (h : holdsSlot cfg g alive ⟨versions,
      some { e with conditions := n.setter t e.conditions message },
      n.phaseAfter v.phase e, log⟩ = true) : holdsSlot cfg g alive v = true := by
  have hstored := hb.stored e hown
  have horder := hb.inOrder
  unfold NodeView.InOrder at horder
  -- an unfinished apply of a running `Reconcile` counts
  have happlying : v.phase ≠ .reclaiming → Applying e → holdsSlot cfg g alive v = true := by
    intro hph happ
    exact holdsSlot_iff.mpr (Or.inr ⟨e, hown, occupies_of_applying
      (hstored.of_progressing happ.progressing) happ (hlive hph happ.progressing)⟩)
  have hquiet : n.marksProgressing = false → n.marksFailed = false →
      n.phaseAfter v.phase e = v.phase → holdsSlot cfg g alive v = true := by
    intro hprog hfail hph
    rw [hph] at h
    rcases holdsSlot_iff.mp h with hres | ⟨e', he', hocc⟩
    · exact holdsSlot_iff.mpr (Or.inl hres)
    · rw [← Option.some.inj he', not_occupies (by rw [Notice.isProgressing_setter, hprog])
        (Or.inl (by rw [Notice.isTerminallyFailed_setter, hfail]))] at hocc
      cases hocc
  have hfailed : n.marksFailed = true → n.phaseAfter v.phase e = v.phase →
      (worn cfg g e = true → holdsSlot cfg g alive v = true) →
      holdsSlot cfg g alive v = true := by
    intro hfail hph hworn
    rw [hph] at h
    rcases holdsSlot_iff.mp h with hres | ⟨e', he', hocc⟩
    · exact holdsSlot_iff.mpr (Or.inl hres)
    · rw [← Option.some.inj he'] at hocc
      rcases occupies_iff.mp hocc with ⟨-, happ, -⟩ | hex
      · refine absurd happ (not_applying_setter ?_ t e message)
        cases n <;> first
          | rfl
          | cases hfail
      · exact hworn (exhausted_iff.mp hex).2.2
  cases n with
  | progressing =>
    obtain ⟨hstart, hph | ⟨p, previous, hph, hwhy⟩⟩ := hn
    · rw [hph] at horder
      refine holdsSlot_iff.mpr (Or.inl ?_)
      rw [hph, horder.1]
      exact decide_eq_true rfl
    · have hprog : isProgressing e.conditions = true := by
        rw [hph] at horder
        exact hwhy.elim id fun hr => (horder e hown).2 hr hstart.not_done
      exact happlying (by rw [hph]; nofun) ⟨hprog, hstart.notFinalizing⟩
  | finalizing => exact happlying (by rw [hn.1]; nofun) hn.2
  | retrying => exact happlying (by rw [hn.1]; nofun) hn.2
  | failedToConfigure =>
    refine hfailed rfl rfl fun hw => ?_
    rcases hn with hask | ⟨hph, happ, -⟩
    · obtain ⟨p, previous, hph, -⟩ := hask.filled
      rw [hph] at horder
      rw [hask.startable.not_worn (horder e hown).1] at hw
      cases hw
    · exact happlying (by rw [hph]; nofun) happ
  | generateFailure =>
    -- a worn enactment is in the middle of an apply, or has failed before
    refine hfailed rfl rfl fun hw => ?_
    obtain ⟨p, hph⟩ := hn
    obtain ⟨hdone, hprog | hterm⟩ := hstored.failing hw
    · refine happlying (by rw [hph]; nofun) ⟨hprog, ?_⟩
      rw [isDone, Bool.or_eq_false_iff] at hdone
      exact hdone.2
    · refine holdsSlot_iff.mpr (Or.inr ⟨e, hown, occupies_iff.mpr (Or.inr ?_)⟩)
      refine exhausted_iff.mpr ⟨?_, hterm, hw⟩
      by_contra hne
      have hzero := (hstored.untouched hne).2
      have hpos := (worn_iff.mp hw).1
      omega
  | pending => exact hquiet rfl rfl rfl
  | aborted => exact hquiet rfl rfl rfl
  | success => exact hquiet rfl rfl rfl
  | interrupted => exact hn.elim

/-- **Only a claim makes a node a holder.**  An unfinished apply must count as alive while
`Reconcile` runs. -/
theorem holdsSlot_of_exec {s : Sys} {a : Answer} {o : Op} {r : o.Resp} {w : World} {φ : Ghost}
    {evs log : List Event} (hs : Sound cfg s) (hgen : ∀ p ∈ s.world.versions, p.generation = g)
    (hb : Books cfg g (s.node i))
    (hlive : (s.ghosts i).phase ≠ .reclaiming → ∀ e, s.world.enactments i = some e →
      isProgressing e.conditions = true → alive e.conditions = true)
    (hx : Executes cfg s i a o r w φ evs)
    (h : holdsSlot cfg g alive ⟨w.versions, w.enactments i, φ.phase, log⟩ = true) :
    holdsSlot cfg g alive (s.node i) = true ∨
      ∃ view, evs = [.policyWritten i (.increment g) view] := by
  have hbasis := hs.basis i
  have heff := hx.effect
  generalize φ.phase = ph at heff h
  have hquiet : ∀ {ph : Phase} {versions : List Policy},
      (ph.reserves g = true → (s.ghosts i).phase.reserves g = true) →
      holdsSlot cfg g alive ⟨versions, s.world.enactments i, ph, log⟩ = true →
      holdsSlot cfg g alive (s.node i) = true := fun hres h =>
    holdsSlot_iff.mpr ((holdsSlot_iff.mp h).imp_left hres)
  have hwrite : ∀ {e' : EnactmentStatus} {ph : Phase} {versions : List Policy},
      (ph.reserves g = true → (s.ghosts i).phase.reserves g = true) →
      (occupies cfg g alive e' = true → holdsSlot cfg g alive (s.node i) = true) →
      holdsSlot cfg g alive ⟨versions, some e', ph, log⟩ = true →
      holdsSlot cfg g alive (s.node i) = true := by
    intro e' ph versions hres hocc h
    rcases holdsSlot_iff.mp h with h | ⟨e'', he'', h⟩
    · exact holdsSlot_iff.mpr (Or.inl (hres h))
    · exact hocc (Option.some.inj he'' ▸ h)
  have hblank : ∀ {e' : EnactmentStatus}, isProgressing e'.conditions = false →
      isTerminallyFailed e'.conditions = false → occupies cfg g alive e' = true →
      holdsSlot cfg g alive (s.node i) = true := fun hprog hterm hocc => by
    rw [not_occupies hprog (Or.inl hterm)] at hocc
    cases hocc
  have hold : ∀ e, s.world.enactments i = some e → occupies cfg g alive e = true →
      holdsSlot cfg g alive (s.node i) = true := fun e he hocc =>
    holdsSlot_iff.mpr (Or.inr ⟨e, he, hocc⟩)
  cases heff with
  | claim hown hask hp hrv hcap =>
    rename_i e q t
    obtain ⟨p, previous, hph, -⟩ := hask.filled
    have horder := hb.inOrder
    unfold NodeView.InOrder Sys.node at horder
    rw [hph] at horder
    exact Or.inr ⟨_, by rw [(horder e hown).1]⟩
  | quiet => exact Or.inl (hquiet id h)
  | audit hp hrv hl hdue hlt => exact Or.inl (hquiet id h)
  | update hp hrv hl hnodes hpods => exact Or.inl (hquiet id h)
  | reset hp hrv => exact Or.inl (hquiet id h)
  | create hown hph =>
    rw [World.setEnactment_self] at h
    exact Or.inl (hwrite id (hblank rfl rfl) h)
  | delete hph =>
    rw [World.setEnactment_self, hph] at h
    cases h
  | firstStatus hown hph =>
    rw [World.setEnactment_self] at h
    exact Or.inl (hwrite id (hblank rfl rfl) h)
  | resetGeneration hown hph =>
    rename_i e p
    rw [hph] at hbasis
    rw [World.setEnactment_self, (hbasis p rfl).generation_eq hgen] at h
    refine Or.inl (hwrite (fun hres => ?_) (fun hocc => ?_) h)
    · cases hres
    · exact hold e hown (occupies_of_reset hocc rfl rfl)
  | fill hown hph hvlan =>
    rename_i e p previous generated desired captured features
    rw [hph] at hbasis
    rw [World.setEnactment_self, (hbasis p rfl).generation_eq hgen] at h
    refine Or.inl (hwrite (fun hres => ?_) (fun hocc => ?_) h)
    · cases hres
    · exact hold e hown (occupies_of_reset hocc rfl rfl)
  | notice hown hn =>
    rw [World.setEnactment_self] at h
    exact Or.inl (hb.holdsSlot_of_notice hown hn (fun hph => hlive hph _ hown) h)
  | interrupted hown hph happ =>
    rw [World.setEnactment_self] at h
    refine Or.inl (hwrite id (hblank ?_ ?_) h)
    · rw [interruptedStatus, Notice.isProgressing_setter]
      rfl
    · rw [interruptedStatus, Notice.isTerminallyFailed_setter]
      rfl
  | retryCount hown hph happ =>
    rename_i e
    rw [World.setEnactment_self] at h
    have hg := (hb.stored e hown).of_progressing happ.progressing
    exact Or.inl (hwrite id (fun _ => hold e hown (occupies_of_applying hg happ
      (hlive (by rw [hph]; exact Phase.noConfusion) e hown happ.progressing))) h)
  | _ =>
    refine Or.inl (hquiet (fun hres => ?_) h)
    cases hres

end

/-! ## Keeping a slot -/

/-- The heartbeat does not matter. -/
def always : ConditionList → Bool := fun _ => true

section

variable {cfg : Config} {i : NodeName} {g : Generation}

theorem generation_of_occupies {alive : ConditionList → Bool} {e : EnactmentStatus}
    (h : occupies cfg g alive e = true) : e.policyGeneration = g := by
  rcases occupies_iff.mp h with ⟨hg, -, -⟩ | hex
  · exact hg
  · exact (exhausted_iff.mp hex).1

/-- Recording the generation does not hide a slot. -/
theorem occupies_reset {alive : ConditionList → Bool} {e e' : EnactmentStatus}
    (h : occupies cfg g alive e = true) (hg : e'.policyGeneration = g)
    (hr : e'.retryCount = e.retryCount)
    (hc : e'.conditions = (resetPolicyGeneration e g).conditions) :
    occupies cfg g alive e' = true := by
  have hge := generation_of_occupies h
  rw [conditions_resetPolicyGeneration_of_eq hge] at hc
  simpa only [occupies, exhausted, worn, hg, hge, hr, hc] using h

theorem Books.holdsSlot_notice {v : NodeView} (hb : Books cfg g v) {e : EnactmentStatus}
    {n : Notice} {t : Time} {message : String} {versions : List Policy} {log : List Event}
    (hown : v.own = some e) (hn : n.Allowed cfg v.phase e)
    (hgiven : v.phase.givenUp = true → isProgressing e.conditions = false)
    (h : holdsSlot cfg g always v = true) :
    holdsSlot cfg g always ⟨versions,
      some { e with conditions := n.setter t e.conditions message },
      n.phaseAfter v.phase e, log⟩ = true := by
  have hstored := hb.stored e hown
  have horder := hb.inOrder
  unfold NodeView.InOrder at horder
  have hasked : ∀ {P : Prop}, Asking cfg v.phase e → P := fun hask => by
    rw [hb.not_holds_of_asking always hown hask] at h
    cases h
  have hmarked : e.policyGeneration = g → n.marksProgressing = true → n ≠ .finalizing →
      occupies cfg g always { e with conditions := n.setter t e.conditions message } = true := by
    intro hg hprog hfin
    refine occupies_of_applying hg ⟨?_, ?_⟩ rfl
    · rw [Notice.isProgressing_setter, hprog]
    · rw [Notice.isFinalizing_setter, decide_eq_false hfin]
  have hfailed : e.policyGeneration = g → n.marksFailed = true → worn cfg g e = true →
      occupies cfg g always { e with conditions := n.setter t e.conditions message } = true := by
    intro hg hfail hw
    refine occupies_iff.mpr (Or.inr (exhausted_iff.mpr ⟨hg, ?_, hw⟩))
    rw [Notice.isTerminallyFailed_setter, hfail]
  have hshown : occupies cfg g always { e with conditions := n.setter t e.conditions message } =
      true → holdsSlot cfg g always ⟨versions,
        some { e with conditions := n.setter t e.conditions message },
        n.phaseAfter v.phase e, log⟩ = true := fun hocc =>
    holdsSlot_iff.mpr (Or.inr ⟨_, rfl, hocc⟩)
  cases n with
  | progressing =>
    refine hshown (hmarked ?_ rfl nofun)
    obtain ⟨-, hph | ⟨p, previous, hph, -⟩⟩ := hn <;> rw [hph] at horder
    · exact horder.1
    · exact (horder e hown).1
  | finalizing =>
    rw [hn.1] at horder
    exact holdsSlot_iff.mpr (Or.inl (decide_eq_true horder.1))
  | retrying =>
    rw [hn.1] at horder
    exact hshown (hmarked horder.1 rfl nofun)
  | failedToConfigure =>
    rcases hn with hask | ⟨hph, -, hle⟩
    · exact hasked hask
    · rw [hph] at horder
      obtain ⟨hg, hpos⟩ := horder
      rw [hg] at hle
      exact hshown (hfailed hg rfl (worn_iff.mpr ⟨by omega, hle⟩))
  | generateFailure =>
    obtain ⟨p, hph⟩ := hn
    have hnot := hgiven (by rw [hph]; rfl)
    rcases holdsSlot_iff.mp h with hres | ⟨e', he', hocc⟩
    · rw [hph] at hres
      cases hres
    obtain rfl : e = e' := Option.some.inj (hown.symm.trans he')
    rcases occupies_iff.mp hocc with ⟨-, happ, -⟩ | hex
    · exact absurd happ (not_applying_of_not_progressing hnot)
    · obtain ⟨hg, -, hw⟩ := exhausted_iff.mp hex
      exact hshown (hfailed hg rfl hw)
  | pending => exact hasked hn
  | aborted => exact hasked hn
  | success =>
    -- an enactment that is finalizing shows no slot, and the phase reserves none
    obtain ⟨hfin, hwhere⟩ := hn
    rcases holdsSlot_iff.mp h with hres | ⟨e', he', hocc⟩
    · rcases hwhere with hph | hph | ⟨p, previous, hph⟩ <;> rw [hph] at hres <;> cases hres
    obtain rfl : e = e' := Option.some.inj (hown.symm.trans he')
    rcases occupies_iff.mp hocc with ⟨-, happ, -⟩ | hex
    · have hnot := happ.notFinalizing
      rw [hfin] at hnot
      cases hnot
    · have hdone := (hstored.failing (exhausted_iff.mp hex).2.2).1
      simp [isDone, hfin] at hdone
  | interrupted => exact hn.elim

/-- **Only a release ends the holding**, as long as the enactment is not deleted, a generation
is not given up in the middle of an apply, and a reserved slot is not dropped silently. -/
theorem holdsSlot_exec {s : Sys} {a : Answer} {o : Op} {r : o.Resp} {w : World} {φ : Ghost}
    {evs log : List Event} (hs : Sound cfg s) (hgen : ∀ p ∈ s.world.versions, p.generation = g)
    (hb : Books cfg g (s.node i)) (hdel : deletes i s (.exec i a) = false)
    (hjob : (s.ghosts i).phase ≠ .reclaiming)
    (hgiven : (s.ghosts i).phase.givenUp = true → ∀ e, s.world.enactments i = some e →
      isProgressing e.conditions = false)
    (hkeep : (s.ghosts i).phase.reserves g = true → evs = [] → φ.phase.reserves g = true)
    (hx : Executes cfg s i a o r w φ evs) (h : holdsSlot cfg g always (s.node i) = true) :
    holdsSlot cfg g always ⟨w.versions, w.enactments i, φ.phase, log⟩ = true ∨
      ∃ reader view, evs = [.policyWritten i (.decrement reader g) view] := by
  have hbasis := hs.basis i
  have hdeletes := hx.deletes_eq
  have heff := hx.effect
  generalize φ.phase = ph at heff hkeep ⊢
  have hcases := holdsSlot_iff.mp h
  -- nothing about the enactment changes
  have hquiet : ∀ {ph : Phase} {versions : List Policy},
      ((s.ghosts i).phase.reserves g = true → ph.reserves g = true) →
      holdsSlot cfg g always ⟨versions, s.world.enactments i, ph, log⟩ = true := fun hres =>
    holdsSlot_iff.mpr (hcases.imp_left hres)
  -- the enactment is written in a phase that reserves nothing
  have hwrite : ∀ {e e' : EnactmentStatus} {ph : Phase} {versions : List Policy},
      s.world.enactments i = some e → (s.ghosts i).phase.reserves g = false →
      (occupies cfg g always e = true → occupies cfg g always e' = true) →
      holdsSlot cfg g always ⟨versions, some e', ph, log⟩ = true := by
    intro e e' ph versions hown hres hocc
    rcases hcases with hr | ⟨e'', he'', hold⟩
    · rw [show (s.node i).phase = (s.ghosts i).phase from rfl, hres] at hr
      cases hr
    · obtain rfl : e = e'' := Option.some.inj (hown.symm.trans he'')
      exact holdsSlot_iff.mpr (Or.inr ⟨e', rfl, hocc hold⟩)
  cases heff with
  | quiet => exact Or.inl h
  | looked hp hph => exact Or.inl (hquiet fun hr => by rw [hph] at hr; cases hr)
  | found hown hph => exact Or.inl (hquiet fun hr => by rw [hph] at hr; cases hr)
  | rendered hph => exact Or.inl (hquiet fun hr => by rw [hph] at hr; cases hr)
  | unrendered hph => exact Or.inl (hquiet fun hr => by rw [hph] at hr; cases hr)
  | applied hown hph happ => exact Or.inl (hquiet fun hr => by rw [hph] at hr; cases hr)
  | applyFailed hown hph happ => exact Or.inl (hquiet fun hr => by rw [hph] at hr; cases hr)
  | audit hp hrv hl hdue hlt => exact Or.inl (hquiet id)
  | update hp hrv hl hnodes hpods => exact Or.inl (hquiet id)
  | reset hp hrv => exact Or.inl (hquiet id)
  | nothingHeld hheld hp hcount =>
    obtain ⟨rfl, -⟩ := hb.not_occupies_of_held always hheld
    have hr := hkeep (Phase.reserves_iff.mpr hheld.symm) rfl
    cases hr
  | release hheld hp hrv hpos =>
    obtain ⟨rfl, -⟩ := hb.not_occupies_of_held always hheld
    exact Or.inr ⟨_, _, rfl⟩
  | claim hown hask hp hrv hcap =>
    have hnot := hb.not_holds_of_asking always hown hask
    rw [h] at hnot
    cases hnot
  | create hown hph =>
    rcases hcases with hr | ⟨e, he, -⟩
    · rw [Sys.node, hph] at hr
      cases hr
    · rw [Sys.node, hown] at he
      cases he
  | delete hph =>
    rcases hcases with hr | ⟨e, he, -⟩
    · rw [Sys.node, hph] at hr
      cases hr
    · rw [hdeletes (by rw [show s.world.enactments i = some e from he]; exact Option.some_ne_none e)
        (World.setEnactment_self _ _ _)] at hdel
      cases hdel
  | firstStatus hown hph =>
    rw [World.setEnactment_self]
    refine Or.inl (hwrite hown (by rw [hph]; rfl) fun hocc => ?_)
    rw [not_occupies rfl (Or.inl rfl)] at hocc
    cases hocc
  | resetGeneration hown hph =>
    rename_i e p
    rw [hph] at hbasis
    rw [World.setEnactment_self, (hbasis p rfl).generation_eq hgen]
    refine Or.inl (hwrite hown (by rw [hph]; rfl) fun hocc => ?_)
    exact occupies_reset hocc rfl rfl rfl
  | fill hown hph hvlan =>
    rename_i e p previous generated desired captured features
    rw [hph] at hbasis
    rw [World.setEnactment_self, (hbasis p rfl).generation_eq hgen]
    refine Or.inl (hwrite hown (by rw [hph]; rfl) fun hocc => ?_)
    exact occupies_reset hocc rfl rfl rfl
  | notice hown hn =>
    rw [World.setEnactment_self]
    exact Or.inl (hb.holdsSlot_notice hown hn (fun hg => hgiven hg _ hown) h)
  | interrupted hown hph happ => exact absurd hph hjob
  | retryCount hown hph happ =>
    rename_i e
    rw [World.setEnactment_self]
    refine Or.inl (hwrite hown (by rw [hph]; rfl) fun _ => ?_)
    exact occupies_of_applying ((hb.stored e hown).of_progressing happ.progressing)
      ⟨happ.progressing, happ.notFinalizing⟩ rfl

end
