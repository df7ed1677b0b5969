/-
# The counter through unreliable answers

`incrementUnavailableNodeCount` and `decrementUnavailableNodeCount` against one stored policy.
A status update can be committed, fail, be refused as a conflict, or be committed while its
answer is lost; a read through the cached client returns the object of the cache.

A `Ledger` is the stored policy, the object of the cache, and a log of the status updates the
call has tried.  The object that a cached read returns shares its counters with the cached one,
so that every attempt leaves its change in the cache, whether it takes effect or not; the cache
gets rid of it with the next version.  The direct client decodes into the object of the attempt
before.  Both functions read again before every attempt and retry every error, so:

* a lost answer is not told from a failed update, and a refused attempt is counted by the next
  one on the same version; the entry moves by at most one exactly when no update takes effect
  after such an attempt (`slot_counted_once`);
* the release returns early when the *cached* entry is zero, which it is at last when the cached
  attempts keep conflicting; a reported release is real exactly when the cached object is the
  stored one or its entry outlasts the attempts, or when there is nothing to release
  (`reported_release_real`).
-/
import KubernetesNmstate.Interference
import KubernetesNmstate.Executions
import KubernetesNmstate.Conformance

/-! ## The ledger of one call -/

/-- What becomes of a status update. -/
inductive WriteOutcome : Type where
  | commits : WriteOutcome
  | fails (err : Err) : WriteOutcome
  /-- The update is committed and its answer does not arrive. -/
  | loses (err : Err) : WriteOutcome
  deriving DecidableEq, Repr, Inhabited

/-- A status update that was tried: the version it was based on, whether it shared its counters
with the cached object, whether it took effect, and by how much it moved the entry. -/
structure Update where
  version : ℕ
  shared : Bool
  took : Bool
  moved : ℤ
  deriving DecidableEq, Repr, Inhabited

/-- The stored policy, the object of the cache, the counters of the object that the direct client
decodes into, and the updates tried so far, the newest first. -/
structure Ledger where
  policy : Policy
  cached : Policy
  decoded : CountMap := []
  log : List Update := []
  deriving DecidableEq, Repr, Inhabited

namespace Ledger

/-- The object of this caller shares its counters with the cached one.  An object without
counters gets a map of its own. -/
def shares (L : Ledger) : Caller → Bool
  | .increment _ | .decrement .cached _ => L.cached.status.unavailableNodeCountMap ≠ []
  | _ => false

/-- The counters of the object that the direct client decodes into, once `q` was written. -/
def decodedAfter (L : Ledger) (q : Policy) : Caller → CountMap
  | .decrement .api _ => q.status.unavailableNodeCountMap
  | _ => L.decoded

/-- The ledger after an update with `q` that took effect or not. -/
def after (key : Generation) (L : Ledger) (caller : Caller) (q : Policy) (took : Bool) :
    Ledger where
  policy :=
    if took then
      { L.policy with status := q.status, resourceVersion := L.policy.resourceVersion + 1 }
    else L.policy
  cached :=
    if L.shares caller then L.cached.withCounts q.status.unavailableNodeCountMap else L.cached
  decoded := L.decodedAfter q caller
  log := ⟨q.resourceVersion, L.shares caller, took,
    if took then q.count key - L.policy.count key else 0⟩ :: L.log

/-- The answer to an update, and the ledger after it.  Only an update of the newest version
takes effect. -/
def write (key : Generation) (L : Ledger) (caller : Caller) (q : Policy) :
    WriteOutcome → Except Err Unit × Ledger
  | .commits =>
    if q.resourceVersion = L.policy.resourceVersion then (.ok (), L.after key caller q true)
    else (.error .conflict, L.after key caller q false)
  | .fails e => (.error e, L.after key caller q false)
  | .loses e =>
    (.error e, L.after key caller q (decide (q.resourceVersion = L.policy.resourceVersion)))

/-- The ledger when a client reads.  An up-to-date cache holds the newest version; it gets a new
object for it only when its own is an older version. -/
def fetch (upToDate : Bool) (L : Ledger) : Client → Ledger
  | .cached =>
    if upToDate = true ∧ L.cached.resourceVersion ≠ L.policy.resourceVersion then
      { L with cached := L.policy }
    else L
  | .api => L

/-- What a client reads. -/
def shown (L : Ledger) : Client → Policy
  | .cached => L.cached
  | .api => L.policy.decodedInto L.decoded

/-- How a call is served; a call that is not about the policy gets any answer. -/
def Serves (key : Generation) (upToDate : Bool) (outcomes : ℕ → WriteOutcome) (L : Ledger) :
    (o : Op) → o.Resp → Ledger → Prop
  | .getPolicy client _, r, L' =>
    L' = L.fetch upToDate client ∧ ∀ p, r = .ok p → p = L'.shown client
  | .updatePolicyStatus caller q, r, L' =>
    (r, L') = L.write key caller q (outcomes L.log.length)
  | _, _, L' => L' = L

/-- What other nodes do meanwhile: they commit versions of their own.  With `forgets` they may
remove the entry, as a verdict of success does; otherwise it stays once it is there. -/
structure OtherNodes (key : Generation) (forgets : Bool) (L L' : Ledger) : Prop where
  cached : L'.cached = L.cached
  decoded : L'.decoded = L.decoded
  log : L'.log = L.log
  policy : L.policy.Precedes L'.policy
  entry : forgets = false → L.policy.status.unavailableNodeCountMap.has key = true →
    L'.policy.status.unavailableNodeCountMap.has key = true

theorem OtherNodes.refl (key : Generation) (forgets : Bool) (L : Ledger) :
    L.OtherNodes key forgets L := ⟨rfl, rfl, rfl, .refl _, fun _ h => h⟩

/-- By how much the call has moved the entry. -/
def moved (L : Ledger) : ℤ := (L.log.map Update.moved).sum

/-- **What an update does**: it takes effect, which only one of the newest version can, or it does
not; only an update that took effect says so. -/
theorem write_cases {key : Generation} {L L' : Ledger} {caller : Caller} {q : Policy}
    {outcome : WriteOutcome} {r : Except Err Unit} (h : (r, L') = L.write key caller q outcome) :
    ∃ took, L' = L.after key caller q took ∧
      (took = true → q.resourceVersion = L.policy.resourceVersion) := by
  cases outcome with
  | fails e => exact ⟨false, (Prod.mk.inj h).2, nofun⟩
  | commits =>
    simp only [write] at h
    split at h
    · exact ⟨true, (Prod.mk.inj h).2, fun _ => ‹_›⟩
    · exact ⟨false, (Prod.mk.inj h).2, nofun⟩
  | loses e => exact ⟨_, (Prod.mk.inj h).2, of_decide_eq_true⟩

end Ledger

/-- The surroundings of a call whose `n`-th status update has the outcome `outcomes n`. -/
def ledgerEnv (key : Generation) (upToDate : Bool) (outcomes : ℕ → WriteOutcome) :
    Env Api Ledger where
  serve := Ledger.Serves key upToDate outcomes

/-! ## One attempt -/

section

variable {key : Generation} {upToDate : Bool} {outcomes : ℕ → WriteOutcome}
  {R : Ledger → Ledger → Prop}

/-- The calls of a procedure against a ledger, among changes along `R`. -/
abbrev Accounts {α : Type} (key : Generation) (upToDate : Bool) (outcomes : ℕ → WriteOutcome)
    (R : Ledger → Ledger → Prop) (p : Proc α) (Q : α → Ledger → Prop) (L : Ledger) : Prop :=
  Follows ((ledgerEnv key upToDate outcomes).among R) (Monitor.observer Ledger fun u _ => u) p
    (fun a L _ => Q a L) L ()

/-- An attempt leaves `Q` when it succeeds and `F` when it fails. -/
def Settles (F Q : Ledger → Prop) (r : Except Err Unit) (L : Ledger) : Prop :=
  (r = .ok () → Q L) ∧ ∀ e, r = .error e → F L

theorem Settles.of_error {F Q : Ledger → Prop} {L : Ledger} (h : F L) (e : Err) :
    Settles F Q (.error e) L :=
  ⟨nofun, fun _ _ => h⟩

theorem Settles.of_ok {F Q : Ledger → Prop} {L : Ledger} (h : Q L) : Settles F Q (.ok ()) L :=
  ⟨fun _ => h, nofun⟩

/-- What an attempt that moves the entry by `d` goes through: `I` before it, `J p` once it has
read `p`, and then `F` when it fails and `Q` when it succeeds. -/
structure Attempting (key : Generation) (upToDate : Bool) (outcomes : ℕ → WriteOutcome)
    (R : Ledger → Ledger → Prop) (reader : Client) (caller : Caller) (d : ℤ) (I : Ledger → Prop)
    (J : Policy → Ledger → Prop) (F Q : Ledger → Prop) : Prop where
  others : ∀ {L L'}, R L L' → I L → I L'
  fetches : ∀ {L}, I L → I (L.fetch upToDate reader)
  unread : ∀ {L}, I L → F L
  /-- A release goes on with a positive entry only. -/
  reads : ∀ {L}, I L → (d < 0 → 0 < (L.shown reader).count key) → J (L.shown reader) L
  keeps : ∀ {L L' p}, R L L' → J p L → J p L'
  gives : ∀ {L p}, J p L → F L
  writes : ∀ {L p t r L'}, J p L → (r, L') = L.write key caller
    (p.stampCount key (p.count key + d) t) (outcomes L.log.length) → Settles F Q r L'

theorem accounts_ask {α : Type} {Q : α → Ledger → Prop} {o : Op} {k : o.Resp → Proc α} {L : Ledger}
    (h : ∀ L₁ r L', R L L₁ → L₁.Serves key upToDate outcomes o r L' →
      Accounts key upToDate outcomes R (k r) Q L') :
    Accounts key upToDate outcomes R (ask o >>= k) Q L :=
  ⟨trivial, fun r L' ⟨L₁, hR, hs⟩ => h L₁ r L' hR hs⟩

/-- The cap, whatever the enactments are. -/
theorem accounts_maxUnavailableNodeCount {J : Ledger → Prop} (hJ : ∀ {L L'}, R L L' → J L → J L')
    (policy : Policy) {L : Ledger} (h : J L) :
    Accounts key upToDate outcomes R (maxUnavailableNodeCount policy) (fun _ => J) L := by
  refine accounts_ask fun L₁ r L' hR hs => ?_
  obtain rfl : L' = L₁ := hs
  rcases r with e | l
  · exact hJ hR h
  · exact hJ hR h

variable {reader : Client} {caller : Caller} {d : ℤ} {I : Ledger → Prop}
  {J : Policy → Ledger → Prop} {F Q : Ledger → Prop}

/-- The stamped update that both functions end with. -/
theorem Attempting.stamp (h : Attempting key upToDate outcomes R reader caller d I J F Q)
    {α : Type} {f : Time → Except Err Unit → α} {g : α → Except Err Unit}
    (hf : ∀ t r, g (f t r) = r) {p : Policy} {L : Ledger} (hJ : J p L) :
    Accounts key upToDate outcomes R (do
      let now ← ask .now
      let r ← ask (.updatePolicyStatus caller (p.stampCount key (p.count key + d) now))
      return f now r) (fun a => Settles F Q (g a)) L := by
  refine accounts_ask fun L₁ t L' hR₁ hs => ?_
  obtain rfl : L' = L₁ := hs
  refine accounts_ask fun L₂ r L₃ hR₂ hwrite => ?_
  have hsettles := h.writes (h.keeps hR₂ (h.keeps hR₁ hJ)) hwrite
  show Settles F Q (g (f t r)) L₃
  rwa [hf]

/-- The attempt of a claim. -/
theorem accounts_tryIncrementing
    (h : Attempting key upToDate outcomes R .cached (.increment key) 1 I J F Q) (policy : Policy)
    {L : Ledger} (hI : I L) :
    Accounts key upToDate outcomes R (tryIncrementing key policy) (fun a => Settles F Q a.2) L := by
  refine accounts_ask fun L₁ r L' hR₁ ⟨hs, hread⟩ => ?_
  have hI₁ : I L' := hs ▸ h.fetches (h.others hR₁ hI)
  rcases r with e | p
  · exact .of_error (h.unread hI₁) e
  obtain rfl := hread p rfl
  refine Follows.bind (accounts_maxUnavailableNodeCount (J := J (L'.shown .cached))
    (fun hR hJ => h.keeps hR hJ) _ (h.reads hI₁ (by omega))) ?_
  rintro ⟨maxUnavailable, err⟩ L₂ - hJ
  dsimp only
  split
  · exact .of_error (h.gives hJ) _
  split
  · exact .of_error (h.gives hJ) _
  · exact h.stamp (fun _ _ => rfl) hJ

/-- A loop of attempts to release; `I n` holds with `n` of them left. -/
theorem accounts_tryDecrementing {I : ℕ → Ledger → Prop} {J : ℕ → Policy → Ledger → Prop}
    (h : ∀ n, Attempting key upToDate outcomes R reader (.decrement reader key) (-1) (I (n + 1))
      (J n) (I n) Q)
    (hnone : ∀ n L, I (n + 1) L → (L.shown reader).count key ≤ 0 → Q L)
    {steps : ℕ} (hsteps : steps ≠ 0) {L : Ledger} (hI : I steps L) :
    Accounts key upToDate outcomes R (tryDecrementingUnavailableNodeCount reader key steps)
      (Settles (fun L => ∃ left, I left L) Q) L := by
  refine follows_onError_steps (I := fun n L _ => I n L) (Q := fun L _ => Q L) hsteps ?_ hI
  intro n L _ hI
  refine Follows.mono (Q := fun r L _ => Settles (I n) Q r L) ?_ fun r L _ h => h
  refine accounts_ask fun L₁ r L' hR₁ ⟨hs, hread⟩ => ?_
  have hI₁ : I (n + 1) L' := hs ▸ (h n).fetches ((h n).others hR₁ hI)
  rcases r with e | p
  · exact .of_error ((h n).unread hI₁) e
  obtain rfl := hread p rfl
  dsimp only
  split
  · exact .of_ok (hnone n L' hI₁ ‹_›)
  · rename_i hpos
    exact (h n).stamp (f := fun _ r => r) (g := id) (fun _ _ => rfl)
      ((h n).reads hI₁ fun _ => by omega)

end

/-! ## What the log adds up to -/

/-- How often the counters of this version were changed in place. -/
def inPlace (version : ℕ) (log : List Update) : ℤ :=
  log.countP fun a => a.shared && decide (a.version = version)

/-- No update takes effect after another one that took effect, or after one that changed the
counters in place which it shares. -/
def Clean (log : List Update) : Prop :=
  log.Pairwise fun b a => b.took = true →
    a.took = false ∧ ¬(a.shared = true ∧ b.shared = true ∧ a.version = b.version)

/-- What each update of a log did to the entry: one that took effect moved it by `d`, and by `d`
more for every change in place before it.  With `exact` this is so for the updates that share
nothing as well; otherwise these moved it by at most that much. -/
def Itemized (d : ℤ) (exact : Bool) : List Update → Prop
  | [] => True
  | b :: log => (b.took = false → b.moved = 0) ∧
      (b.took = true → b.shared = true → d * b.moved = 1 + inPlace b.version log) ∧
      (b.took = true → b.shared = false → d * b.moved ≤ 1 ∧ (exact = true → d * b.moved = 1)) ∧
      Itemized d exact log

section

variable {d : ℤ} {exact : Bool} {log : List Update}

theorem inPlace_nonneg (version : ℕ) (log : List Update) : 0 ≤ inPlace version log :=
  Int.natCast_nonneg _

theorem inPlace_cons (version : ℕ) (b : Update) (log : List Update) :
    inPlace version (b :: log) = inPlace version log +
      if b.shared = true ∧ b.version = version then 1 else 0 := by
  simp only [inPlace, List.countP_cons, Bool.and_eq_true, decide_eq_true_eq]
  split <;> simp

theorem inPlace_eq_zero {version : ℕ}
    (h : ∀ a ∈ log, ¬(a.shared = true ∧ a.version = version)) : inPlace version log = 0 := by
  refine Int.natCast_eq_zero.mpr (List.countP_eq_zero.mpr fun a ha hp => h a ha ?_)
  simpa using hp

theorem inPlace_pos {version : ℕ} {a : Update} (ha : a ∈ log) (hshared : a.shared = true)
    (hversion : a.version = version) : 1 ≤ inPlace version log := by
  refine Int.ofNat_le.mpr (List.countP_pos_iff.mpr ⟨a, ha, ?_⟩)
  simp [hshared, hversion]

/-- Updates without effect add up to nothing. -/
theorem Itemized.sum_eq_zero (h : Itemized d exact log) (hnone : ∀ a ∈ log, a.took = false) :
    (log.map Update.moved).sum = 0 := by
  induction log with
  | nil => rfl
  | cons b log ih =>
    have hrest := ih h.2.2.2 fun a ha => hnone a (List.mem_cons_of_mem _ ha)
    rw [List.map_cons, List.sum_cons, h.1 (hnone b List.mem_cons_self), hrest, add_zero]

/-- A clean log moves the entry at most once. -/
theorem Itemized.sum_le_one (h : Itemized d exact log) (hclean : Clean log) :
    d * (log.map Update.moved).sum ≤ 1 := by
  induction log with
  | nil => simp
  | cons b log ih =>
    obtain ⟨hb, hrest⟩ := List.pairwise_cons.mp hclean
    obtain ⟨hidle, hshared, hown, hlog⟩ := h
    rw [List.map_cons, List.sum_cons, mul_add]
    cases htook : b.took with
    | false =>
      rw [hidle htook, mul_zero, zero_add]
      exact ih hlog hrest
    | true =>
      have hzero := hlog.sum_eq_zero fun a ha => (hb a ha htook).1
      rw [hzero, mul_zero, add_zero]
      cases hs : b.shared with
      | false => exact (hown htook hs).1
      | true =>
        have hfirst := inPlace_eq_zero fun a ha hp => (hb a ha htook).2 ⟨hp.1, hs, hp.2⟩
        rw [hshared htook hs, hfirst, add_zero]

/-- Every update that took effect counts. -/
theorem Itemized.moved_pos {b : Update} (h : Itemized d true (b :: log)) (htook : b.took = true) :
    1 ≤ d * b.moved := by
  obtain ⟨-, hshared, hown, -⟩ := h
  cases hs : b.shared with
  | false => rw [(hown htook hs).2 rfl]
  | true =>
    have hnonneg := inPlace_nonneg b.version log
    rw [hshared htook hs]
    omega

theorem Itemized.sum_nonneg (h : Itemized d true log) : 0 ≤ d * (log.map Update.moved).sum ∧
    ((∃ a ∈ log, a.took = true) → 1 ≤ d * (log.map Update.moved).sum) := by
  induction log with
  | nil => simp
  | cons b log ih =>
    obtain ⟨hsum, hsome⟩ := ih h.2.2.2
    rw [List.map_cons, List.sum_cons, mul_add]
    cases htook : b.took with
    | false =>
      rw [h.1 htook, mul_zero, zero_add]
      refine ⟨hsum, ?_⟩
      rintro ⟨a, ha, hta⟩
      rcases List.mem_cons.mp ha with rfl | ha
      · rw [htook] at hta
        cases hta
      · exact hsome ⟨a, ha, hta⟩
    | true =>
      have hpos := h.moved_pos htook
      exact ⟨by omega, fun _ => by omega⟩

/-- A log that is not clean moves the entry twice. -/
theorem Itemized.clean_of_le (h : Itemized d true log) (hle : d * (log.map Update.moved).sum ≤ 1) :
    Clean log := by
  induction log with
  | nil => exact List.Pairwise.nil
  | cons b log ih =>
    have hlog := h.2.2.2
    obtain ⟨hsum, hsome⟩ := hlog.sum_nonneg
    rw [List.map_cons, List.sum_cons, mul_add] at hle
    have hnonneg : 0 ≤ d * b.moved := by
      cases htook : b.took with
      | false => rw [h.1 htook, mul_zero]
      | true => exact le_trans zero_le_one (h.moved_pos htook)
    refine List.pairwise_cons.mpr ⟨fun a ha htook => ?_, ih hlog (by omega)⟩
    have hpos := h.moved_pos htook
    refine ⟨Bool.eq_false_iff.mpr fun hta => ?_, fun ⟨hsa, hsb, hversion⟩ => ?_⟩
    · have hmore := hsome ⟨a, ha, hta⟩
      omega
    · have htwice := inPlace_pos ha hsa hversion
      rw [h.2.1 htook hsb] at hle
      omega

end

/-! ## A slot is counted once -/

namespace Ledger

/-- The ledger of a call whose reads are up to date: the cache is not ahead, what it shows of the
newest version differs from it by the changes in place, and the log says what each update did. -/
structure Tallied (key : Generation) (d : ℤ) (exact : Bool) (L : Ledger) : Prop where
  behind : L.cached.resourceVersion ≤ L.policy.resourceVersion
  version : ∀ a ∈ L.log, a.version ≤ L.policy.resourceVersion
  shared : ∀ a ∈ L.log, a.shared = true → a.version ≤ L.cached.resourceVersion
  count : L.cached.resourceVersion = L.policy.resourceVersion →
    L.cached.count key = L.policy.count key + d * inPlace L.cached.resourceVersion L.log
  plain : L.cached.status.unavailableNodeCountMap = [] →
    inPlace L.cached.resourceVersion L.log = 0
  itemized : Itemized d exact L.log

/-- The entry that the direct client may find at hand is one that is stored, as long as nobody
removes it. -/
def Remembers (key : Generation) (forgets : Bool) (L : Ledger) : Prop :=
  forgets = false → L.decoded.has key = true →
    L.policy.status.unavailableNodeCountMap.has key = true

variable {key : Generation} {d : ℤ} {exact forgets : Bool} {L L' : Ledger}

theorem Tallied.others (h : L.Tallied key d exact) (hR : L.OtherNodes key forgets L') :
    L'.Tallied key d exact := by
  obtain ⟨hcached, -, hlog, hpolicy, -⟩ := hR
  have hle : L.policy.resourceVersion ≤ L'.policy.resourceVersion := by
    rcases hpolicy with heq | hlt
    · rw [heq]
    · exact Nat.le_of_lt hlt
  refine ⟨?_, ?_, ?_, ?_, ?_, ?_⟩ <;> simp only [hcached, hlog]
  · exact Nat.le_trans h.behind hle
  · exact fun a ha => Nat.le_trans (h.version a ha) hle
  · exact h.shared
  · intro hrv
    rcases hpolicy with heq | hlt
    · rw [← heq] at hrv ⊢
      exact h.count hrv
    · have hbehind := h.behind
      omega
  · exact h.plain
  · exact h.itemized

theorem Remembers.others (h : L.Remembers key forgets) (hR : L.OtherNodes key forgets L') :
    L'.Remembers key forgets := fun hf hhas =>
  hR.entry hf (h hf (hR.decoded ▸ hhas))

/-- A new object of the cache shows the newest version as it is. -/
theorem Tallied.fetch (h : L.Tallied key d exact) (reader : Client) :
    (L.fetch true reader).Tallied key d exact := by
  cases reader with
  | api => exact h
  | cached =>
    by_cases hrv : L.cached.resourceVersion = L.policy.resourceVersion
    · simpa [Ledger.fetch, hrv] using h
    · have hbehind := h.behind
      have hnone : inPlace L.policy.resourceVersion L.log = 0 := inPlace_eq_zero fun a ha hp => by
        have hold := h.shared a ha hp.1
        omega
      have hfetch : L.fetch true .cached = { L with cached := L.policy } := by
        simp [Ledger.fetch, hrv]
      rw [hfetch]
      exact
        { behind := Nat.le_refl _
          version := h.version
          shared := fun a ha _ => h.version a ha
          count := fun _ => by rw [hnone, mul_zero, add_zero]
          plain := fun _ => hnone
          itemized := h.itemized }

theorem Remembers.fetch (h : L.Remembers key forgets) (upToDate : Bool) (reader : Client) :
    (L.fetch upToDate reader).Remembers key forgets := by
  cases reader with
  | api => exact h
  | cached =>
    simp only [Ledger.fetch]
    split
    · exact h
    · exact h

section

variable (key) (L) (caller : Caller) (q : Policy) (took : Bool)

theorem resourceVersion_cached_after :
    (L.after key caller q took).cached.resourceVersion = L.cached.resourceVersion := by
  simp only [after]
  split <;> rfl

theorem resourceVersion_policy_after : (L.after key caller q took).policy.resourceVersion =
    L.policy.resourceVersion + if took = true then 1 else 0 := by
  simp only [after]
  split <;> rfl

/-- An update that shares its counters with the cached object leaves them there. -/
theorem counts_cached_after : (L.after key caller q took).cached.status.unavailableNodeCountMap =
    if L.shares caller = true then q.status.unavailableNodeCountMap
    else L.cached.status.unavailableNodeCountMap := by
  simp only [after]
  split <;> rfl

/-- So the entry of the cached object moves by what the update changed in place. -/
theorem count_cached_after
    (hq : L.shares caller = true → q.count key = L.cached.count key + d) :
    (L.after key caller q took).cached.count key =
      L.cached.count key + if L.shares caller = true then d else 0 := by
  rw [Policy.count, counts_cached_after]
  split
  · rename_i hs
    exact hq hs
  · exact (Int.add_zero _).symm

/-- And the log has one change in place more. -/
theorem inPlace_after
    (hq : L.shares caller = true → q.resourceVersion = L.cached.resourceVersion) :
    inPlace L.cached.resourceVersion (L.after key caller q took).log =
      inPlace L.cached.resourceVersion L.log + if L.shares caller = true then 1 else 0 := by
  simp only [after, inPlace_cons]
  cases hs : L.shares caller with
  | true => simp [hq hs]
  | false => simp

end

/-- **An update keeps the books**, when it is based on a version that is not ahead, changes in
place by `d` what it shares, and is itemized if it takes effect. -/
theorem Tallied.after (h : L.Tallied key d exact) {caller : Caller} {q : Policy} {took : Bool}
    (hle : q.resourceVersion ≤ L.policy.resourceVersion)
    (hshared : L.shares caller = true → q.resourceVersion = L.cached.resourceVersion ∧
      q.count key = L.cached.count key + d ∧ q.status.unavailableNodeCountMap ≠ [])
    (htook : took = true → Itemized d exact (⟨q.resourceVersion, L.shares caller, true,
      q.count key - L.policy.count key⟩ :: L.log)) :
    (L.after key caller q took).Tallied key d exact := by
  have hbehind := h.behind
  have hcached := resourceVersion_cached_after key L caller q took
  have hpolicy := resourceVersion_policy_after key L caller q took
  have hcounts := counts_cached_after key L caller q took
  have hlog := inPlace_after key L caller q took fun hs => (hshared hs).1
  refine ⟨?_, fun a ha => ?_, fun a ha hs => ?_, fun hrv => ?_, fun hnil => ?_, ?_⟩
  · rw [hcached, hpolicy]
    omega
  · rw [hpolicy]
    rcases List.mem_cons.mp ha with rfl | ha
    · exact Nat.le_trans hle (Nat.le_add_right _ _)
    · exact Nat.le_trans (h.version a ha) (Nat.le_add_right _ _)
  · rw [hcached]
    rcases List.mem_cons.mp ha with rfl | ha
    · exact Nat.le_of_eq (hshared hs).1
    · exact h.shared a ha hs
  · rw [hcached] at hrv ⊢
    cases took with
    | true =>
      rw [hpolicy, if_pos rfl] at hrv
      omega
    | false =>
      -- the newest version is still the one before the update
      have hcount := h.count hrv
      rw [hlog, count_cached_after key L caller q false fun hs => (hshared hs).2.1, mul_add]
      show _ = L.policy.count key + _
      split <;> omega
  · rw [hcounts] at hnil
    rw [hcached, hlog]
    cases hs : L.shares caller with
    | true =>
      rw [hs, if_pos rfl] at hnil
      exact absurd hnil (hshared hs).2.2
    | false =>
      rw [hs, if_neg Bool.false_ne_true] at hnil
      simp [h.plain hnil]
  · cases took with
    | true => exact htook rfl
    | false =>
      have hno : false ≠ true := Bool.false_ne_true
      exact ⟨fun _ => rfl, fun hyes => absurd hyes hno, fun hyes => absurd hyes hno, h.itemized⟩

/-- An update of what the cache shows.  It counts every change in place before it, and leaves one
itself when it shares its counters. -/
theorem Tallied.after_cached (h : L.Tallied key d exact) (hd : d = 1 ∨ d = -1) {caller : Caller}
    (hshares : L.shares caller = decide (L.cached.status.unavailableNodeCountMap ≠ [])) (t : Time)
    {took : Bool} (htook : took = true → L.cached.resourceVersion = L.policy.resourceVersion) :
    (L.after key caller (L.cached.stampCount key (L.cached.count key + d) t) took).Tallied
      key d exact := by
  refine h.after h.behind (fun _ => ⟨rfl, Policy.count_stampCount _ _ _ _,
    CountMap.put_ne_nil _ _ _⟩) fun hyes => ?_
  have hcount := h.count (htook hyes)
  rw [Policy.count_stampCount]
  refine ⟨nofun, fun _ _ => ?_, fun _ hs => ?_, h.itemized⟩
  · show d * (L.cached.count key + d - L.policy.count key) =
      1 + inPlace L.cached.resourceVersion L.log
    rcases hd with rfl | rfl <;> omega
  · have hnil : L.cached.status.unavailableNodeCountMap = [] := by
      change L.shares caller = false at hs
      rw [hshares] at hs
      simpa using hs
    rw [h.plain hnil] at hcount
    have hmoved : d * (L.cached.count key + d - L.policy.count key) = 1 := by
      rcases hd with rfl | rfl <;> omega
    exact ⟨Int.le_of_eq hmoved, fun _ => hmoved⟩

/-- An update of what the direct client has read. -/
theorem Tallied.after_api (h : L.Tallied key (-1) exact) {p : Policy} (t : Time) {took : Bool}
    (hle : p.resourceVersion ≤ L.policy.resourceVersion)
    (hcount : p.resourceVersion = L.policy.resourceVersion →
      L.policy.count key ≤ p.count key ∧ (exact = true → p.count key = L.policy.count key))
    (htook : took = true → p.resourceVersion = L.policy.resourceVersion) :
    (L.after key (.decrement .api key) (p.stampCount key (p.count key + -1) t) took).Tallied
      key (-1) exact := by
  refine h.after hle nofun fun hyes => ?_
  obtain ⟨hmore, hsame⟩ := hcount (htook hyes)
  rw [Policy.count_stampCount]
  refine ⟨nofun, nofun, fun _ _ => ⟨?_, fun hexact => ?_⟩, h.itemized⟩
  · show -1 * (p.count key + -1 - L.policy.count key) ≤ 1
    omega
  · have heq := hsame hexact
    show -1 * (p.count key + -1 - L.policy.count key) = 1
    omega

/-- Once it is written, the entry is stored. -/
theorem Remembers.after (h : L.Remembers key forgets) {caller : Caller} {p : Policy} {value : ℤ}
    {t : Time} {took : Bool}
    (hdecoded : L.decodedAfter (p.stampCount key value t) caller = L.decoded ∨
      (forgets = false → L.policy.status.unavailableNodeCountMap.has key = true)) :
    (L.after key caller (p.stampCount key value t) took).Remembers key forgets := by
  intro hf hhas
  cases took with
  | true => exact CountMap.has_put_self _ _ _
  | false =>
    rcases hdecoded with hsame | hstored
    · exact h hf (hsame ▸ hhas)
    · exact hstored hf

end Ledger

/-- The books of a release. -/
structure Ledger.Releases (key : Generation) (forgets : Bool) (L : Ledger) : Prop where
  tallied : L.Tallied key (-1) (!forgets)
  remembers : L.Remembers key forgets

/-- What the direct client has read: the entry of the newest version, unless nothing but an older
entry was at hand; and a positive one is stored as long as nobody removes it. -/
structure Ledger.DirectRead (key : Generation) (forgets : Bool) (p : Policy) (L : Ledger) :
    Prop where
  behind : p.resourceVersion ≤ L.policy.resourceVersion
  count : p.resourceVersion = L.policy.resourceVersion → L.policy.count key ≤ p.count key ∧
    ((!forgets) = true → p.count key = L.policy.count key)
  stored : forgets = false → L.policy.status.unavailableNodeCountMap.has key = true

section

variable {key : Generation} {forgets : Bool} {outcomes : ℕ → WriteOutcome} {L L' : Ledger}

theorem Ledger.Releases.others (h : L.Releases key forgets) (hR : L.OtherNodes key forgets L') :
    L'.Releases key forgets :=
  ⟨h.tallied.others hR, h.remembers.others hR⟩

theorem Ledger.DirectRead.others {p : Policy} (h : L.DirectRead key forgets p)
    (hR : L.OtherNodes key forgets L') : L'.DirectRead key forgets p := by
  have hbehind := h.behind
  refine ⟨?_, fun hrv => ?_, fun hf => hR.entry hf (h.stored hf)⟩
  · rcases hR.policy with heq | hlt
    · exact heq ▸ hbehind
    · omega
  · rcases hR.policy with heq | hlt
    · rw [← heq] at hrv ⊢
      exact h.count hrv
    · omega

/-- A direct read with a positive entry. -/
theorem Ledger.Releases.directRead (h : L.Releases key forgets)
    (hpos : 0 < (L.shown .api).count key) : L.DirectRead key forgets (L.shown .api) := by
  have hread : (L.shown .api).count key = if L.policy.status.unavailableNodeCountMap.has key = true
      then L.policy.count key else L.decoded.get key := CountMap.get_decodeInto _ _ _
  cases hhas : L.policy.status.unavailableNodeCountMap.has key with
  | true =>
    rw [hhas, if_pos rfl] at hread
    exact ⟨Nat.le_refl _, fun _ => ⟨Int.le_of_eq hread.symm, fun _ => hread⟩, fun _ => hhas⟩
  | false =>
    rw [hhas, if_neg Bool.false_ne_true] at hread
    have hzero : L.policy.count key = 0 := CountMap.get_eq_zero _ hhas
    -- the entry is that of an earlier attempt, which somebody has removed meanwhile
    have hforgets : forgets = true := by
      by_contra hf
      have hf := Bool.eq_false_iff.mpr hf
      cases hdecoded : L.decoded.has key with
      | true =>
        rw [h.remembers hf hdecoded] at hhas
        cases hhas
      | false =>
        rw [hread, CountMap.get_eq_zero _ hdecoded] at hpos
        exact Int.lt_irrefl 0 hpos
    subst hforgets
    exact ⟨Nat.le_refl _, fun _ => ⟨by omega, nofun⟩, nofun⟩

/-- The attempt of a claim keeps the books. -/
theorem attempting_claim : Attempting key true outcomes (Ledger.OtherNodes key forgets) .cached
    (.increment key) 1 (Ledger.Tallied key 1 true) (fun p L => L.Tallied key 1 true ∧ L.cached = p)
    (Ledger.Tallied key 1 true) (Ledger.Tallied key 1 true) where
  others hR h := h.others hR
  fetches h := h.fetch .cached
  unread h := h
  reads h _ := ⟨h, rfl⟩
  keeps hR h := ⟨h.1.others hR, hR.cached.trans h.2⟩
  gives h := h.1
  writes := by
    rintro L p t r L' ⟨h, rfl⟩ hwrite
    obtain ⟨took, rfl, htook⟩ := Ledger.write_cases hwrite
    have hafter : (L.after key (.increment key)
        (L.cached.stampCount key (L.cached.count key + 1) t) took).Tallied key 1 true :=
      h.after_cached (.inl rfl) rfl t htook
    exact ⟨fun _ => hafter, fun _ _ => hafter⟩

/-- So does the attempt of a release through the cache. -/
theorem attempting_release_cached : Attempting key true outcomes (Ledger.OtherNodes key forgets)
    .cached (.decrement .cached key) (-1) (Ledger.Releases key forgets)
    (fun p L => L.Releases key forgets ∧ L.cached = p) (Ledger.Releases key forgets)
    (Ledger.Releases key forgets) where
  others hR h := h.others hR
  fetches h := ⟨h.tallied.fetch .cached, h.remembers.fetch true .cached⟩
  unread h := h
  reads h _ := ⟨h, rfl⟩
  keeps hR h := ⟨h.1.others hR, hR.cached.trans h.2⟩
  gives h := h.1
  writes := by
    rintro L p t r L' ⟨h, rfl⟩ hwrite
    obtain ⟨took, rfl, htook⟩ := Ledger.write_cases hwrite
    have hafter : (L.after key (.decrement .cached key)
        (L.cached.stampCount key (L.cached.count key + -1) t) took).Releases key forgets :=
      ⟨h.tallied.after_cached (.inr rfl) rfl t htook, h.remembers.after (.inl rfl)⟩
    exact ⟨fun _ => hafter, fun _ _ => hafter⟩

/-- And the one of a direct release. -/
theorem attempting_release_api : Attempting key true outcomes (Ledger.OtherNodes key forgets)
    .api (.decrement .api key) (-1) (Ledger.Releases key forgets)
    (fun p L => L.Releases key forgets ∧ L.DirectRead key forgets p) (Ledger.Releases key forgets)
    (Ledger.Releases key forgets) where
  others hR h := h.others hR
  fetches h := h
  unread h := h
  reads h hpos := ⟨h, h.directRead (hpos (by decide))⟩
  keeps hR h := ⟨h.1.others hR, h.2.others hR⟩
  gives h := h.1
  writes := by
    rintro L p t r L' ⟨h, hread⟩ hwrite
    obtain ⟨took, rfl, htook⟩ := Ledger.write_cases hwrite
    have hafter : (L.after key (.decrement .api key)
        (p.stampCount key (p.count key + -1) t) took).Releases key forgets :=
      ⟨h.tallied.after_api t hread.behind hread.count htook, h.remembers.after (.inr hread.stored)⟩
    exact ⟨fun _ => hafter, fun _ _ => hafter⟩

theorem accounts_increment (policy : Policy) (h : L.Tallied key 1 true) :
    Accounts key true outcomes (Ledger.OtherNodes key forgets)
      (incrementUnavailableNodeCount policy key) (fun _ => Ledger.Tallied key 1 true) L := by
  refine (Follows.retryWith (I := fun _ L _ => L.Tallied key 1 true)
    (Q := fun _ L _ => L.Tallied key 1 true) (R := fun _ _ _ => True) ?_ (by decide) h).mono ?_
  · intro policy L _ hI
    exact (accounts_tryIncrementing attempting_claim policy hI).mono
      fun r L _ h => ⟨h.1, fun e he => ⟨h.2 e he, trivial⟩⟩
  · rintro ⟨policy, _ | _⟩ L - h
    · exact (h.2 _ rfl).1
    · exact h.1 rfl

theorem accounts_decrement (h : L.Releases key forgets) :
    Accounts key true outcomes (Ledger.OtherNodes key forgets) (decrementUnavailableNodeCount key)
      (fun _ => Ledger.Releases key forgets) L := by
  refine Follows.bind (accounts_tryDecrementing (I := fun _ => Ledger.Releases key forgets)
    (fun _ => attempting_release_cached) (fun _ _ h _ => h) (by decide) h) ?_
  rintro (e | _) L - h
  · obtain ⟨-, h⟩ := h.2 e rfl
    refine (accounts_tryDecrementing (I := fun _ => Ledger.Releases key forgets)
      (fun _ => attempting_release_api) (fun _ _ h _ => h) (by decide) h).mono ?_
    rintro (e | _) L - h
    · obtain ⟨-, h⟩ := h.2 e rfl
      exact h
    · exact h.1 rfl
  · exact h.1 rfl

end

/-- A call that begins with an up-to-date cache. -/
def Ledger.opened (stored : Policy) : Ledger where
  policy := stored
  cached := stored

theorem Ledger.opened_tallied (key : Generation) (d : ℤ) (exact : Bool) (stored : Policy) :
    (Ledger.opened stored).Tallied key d exact where
  behind := Nat.le_refl _
  version := nofun
  shared := nofun
  count _ := by simp [Ledger.opened, inPlace]
  plain _ := rfl
  itemized := trivial

/-- **A slot is counted once**, exactly when no status update of the call takes effect after
another one of the call that took effect with its answer lost, or that changed in place the
counters which it shares: then a claim raises the entry of its generation by at most one and a
release lowers it by at most one, whatever other nodes commit in between.  When others remove
the entry, a direct release can put an older one back; the condition is then sufficient. -/
theorem slot_counted_once (key : Generation) (forgets : Bool) (outcomes : ℕ → WriteOutcome)
    (stored : Policy) :
    (∀ policy tr r L', Exec ((ledgerEnv key true outcomes).among (Ledger.OtherNodes key forgets))
        (incrementUnavailableNodeCount policy key) (Ledger.opened stored) tr r L' →
      (L'.moved ≤ 1 ↔ Clean L'.log)) ∧
    (∀ tr r L', Exec ((ledgerEnv key true outcomes).among (Ledger.OtherNodes key forgets))
        (decrementUnavailableNodeCount key) (Ledger.opened stored) tr r L' →
      (Clean L'.log → -1 ≤ L'.moved) ∧ (forgets = false → -1 ≤ L'.moved → Clean L'.log)) := by
  refine ⟨fun policy tr r L' hx => ?_, fun tr r L' hx => ?_⟩
  · have hitems := ((accounts_increment policy (Ledger.opened_tallied key 1 true stored)).exec
      hx).itemized
    have hone : (1 : ℤ) * L'.moved = L'.moved := one_mul _
    refine ⟨fun hle => hitems.clean_of_le ?_, fun hclean => ?_⟩
    · exact hone.symm ▸ hle
    · exact hone ▸ hitems.sum_le_one hclean
  · have hitems := ((accounts_decrement ⟨Ledger.opened_tallied key (-1) (!forgets) stored,
      nofun⟩).exec hx).tallied.itemized
    refine ⟨fun hclean => ?_, fun hf hle => ?_⟩
    · have hsum := hitems.sum_le_one hclean
      unfold Ledger.moved
      omega
    · subst hf
      refine hitems.clean_of_le ?_
      unfold Ledger.moved at hle
      omega

/-- A version of a policy with room for two unavailable nodes, `count` of them counted. -/
def roomyPolicy (resourceVersion : ℕ) (count : ℤ) : Policy where
  name := "policy"
  generation := 1
  resourceVersion := resourceVersion
  spec := { maxUnavailable := some (.int 2) }
  status := { unavailableNodeCountMap := [(1, count)] }

/-- Answer every call, with two enactments and the policy updates decided by `outcomes`. -/
def answerLedger (key : Generation) (upToDate : Bool) (outcomes : ℕ → WriteOutcome)
    (L : Ledger) : (o : Op) → Option (o.Resp × Ledger)
  | .getPolicy client _ =>
    some (.ok ((L.fetch upToDate client).shown client), L.fetch upToDate client)
  | .updatePolicyStatus caller q => some (L.write key caller q (outcomes L.log.length))
  | .listEnactments => some (.ok ([⟨"node01", {}⟩, ⟨"node02", {}⟩], 1000), L)
  | .now => some (1000, L)
  | _ => none

theorem serves_answerLedger {key : Generation} {upToDate : Bool} {outcomes : ℕ → WriteOutcome}
    {L L' : Ledger} {o : Op} {r : o.Resp}
    (h : answerLedger key upToDate outcomes L o = some (r, L')) :
    L.Serves key upToDate outcomes o r L' := by
  cases o with
  | getPolicy client caller =>
    obtain ⟨rfl, rfl⟩ := Prod.mk.inj (Option.some.inj h)
    exact ⟨rfl, fun p hp => (Except.ok.inj hp).symm⟩
  | updatePolicyStatus caller q => exact (Option.some.inj h).symm
  | _ =>
    simp only [answerLedger, Option.some.injEq, Prod.mk.injEq, reduceCtorEq] at h
    try exact h.2.symm

/-- An execution in which nobody else writes the policy. -/
theorem exists_accounting {α : Type} (key : Generation) (upToDate : Bool)
    (outcomes : ℕ → WriteOutcome) (p : Proc α) (L : Ledger) (P : α → Ledger → Bool)
    (h : (p.play (answerLedger key upToDate outcomes) 80 L).any (fun x => P x.2.1 x.2.2) = true) :
    ∃ tr r L', Exec (ledgerEnv key upToDate outcomes) p L tr r L' ∧ P r L' = true :=
  Exec.exists_of_play serves_answerLedger 80 p L (fun _ => P) h

/-- The first update loses its answer. -/
def firstLost : ℕ → WriteOutcome
  | 0 => .loses (.other "timeout")
  | _ => .commits

/-- The first update fails. -/
def firstFailed : ℕ → WriteOutcome
  | 0 => .fails (.other "timeout")
  | _ => .commits

/-- With these outcomes a claim raises the entry from zero to two, and a release lowers it from
two to zero. -/
def CountsTwice (outcomes : ℕ → WriteOutcome) : Prop :=
  (∃ policy tr r L', Exec ((ledgerEnv 1 true outcomes).among (Ledger.OtherNodes 1 false))
      (incrementUnavailableNodeCount policy 1) (Ledger.opened (roomyPolicy 1 0)) tr r L' ∧
    L'.moved = 2 ∧ L'.policy.count 1 = 2) ∧
  ∃ tr r L', Exec ((ledgerEnv 1 true outcomes).among (Ledger.OtherNodes 1 false))
      (decrementUnavailableNodeCount 1) (Ledger.opened (roomyPolicy 1 2)) tr r L' ∧
    L'.moved = -2 ∧ L'.policy.count 1 = 0

theorem countsTwice_of_play {outcomes : ℕ → WriteOutcome}
    (hclaim : ((incrementUnavailableNodeCount (roomyPolicy 1 0) 1).play
      (answerLedger 1 true outcomes) 80 (Ledger.opened (roomyPolicy 1 0))).any
      (fun x => x.2.2.moved == 2 && x.2.2.policy.count 1 == 2) = true)
    (hrelease : ((decrementUnavailableNodeCount 1).play (answerLedger 1 true outcomes) 80
      (Ledger.opened (roomyPolicy 1 2))).any
      (fun x => x.2.2.moved == -2 && x.2.2.policy.count 1 == 0) = true) :
    CountsTwice outcomes := by
  obtain ⟨tr₁, r₁, L₁, hx₁, hP₁⟩ := exists_accounting 1 true outcomes _ _
    (fun _ L' => L'.moved == 2 && L'.policy.count 1 == 2) hclaim
  obtain ⟨tr₂, r₂, L₂, hx₂, hP₂⟩ := exists_accounting 1 true outcomes _ _
    (fun _ L' => L'.moved == -2 && L'.policy.count 1 == 0) hrelease
  simp only [Bool.and_eq_true, beq_iff_eq] at hP₁ hP₂
  exact ⟨⟨_, tr₁, r₁, L₁, hx₁.among (Ledger.OtherNodes.refl 1 false), hP₁⟩,
    tr₂, r₂, L₂, hx₂.among (Ledger.OtherNodes.refl 1 false), hP₂⟩

/-- The first answer is lost, or the first update fails and leaves its change in the cache: the
second attempt moves the entry again. -/
theorem slot_counted_twice : CountsTwice firstLost ∧ CountsTwice firstFailed :=
  ⟨countsTwice_of_play (by decide +kernel) (by decide +kernel),
    countsTwice_of_play (by decide +kernel) (by decide +kernel)⟩

/-- A conflict, and then an update that is committed and loses its answer. -/
def secondLost : ℕ → WriteOutcome
  | 1 => .loses (.other "timeout")
  | _ => .fails .conflict

/-- A claim on a policy without counters, whose second update is committed without an answer
before the connection is gone. -/
theorem slot_counted_once_late : ∃ tr r L',
    Exec ((ledgerEnv 1 true secondLost).among (Ledger.OtherNodes 1 false))
      (incrementUnavailableNodeCount { roomyPolicy 1 0 with status := {} } 1)
      (Ledger.opened { roomyPolicy 1 0 with status := {} }) tr r L' ∧
    L'.policy.count 1 = 1 ∧ Clean L'.log := by
  obtain ⟨tr, r, L', hx, hP⟩ := exists_accounting 1 true secondLost
    (incrementUnavailableNodeCount { roomyPolicy 1 0 with status := {} } 1)
    (Ledger.opened { roomyPolicy 1 0 with status := {} })
    (fun _ L' => L'.policy.count 1 == 1 && decide (L'.moved ≤ 1)) (by decide +kernel)
  simp only [Bool.and_eq_true, beq_iff_eq, decide_eq_true_eq] at hP
  have hx := hx.among (Ledger.OtherNodes.refl 1 false)
  exact ⟨tr, r, L', hx, hP.1, ((slot_counted_once 1 false secondLost _).1 _ tr r L' hx).mp hP.2⟩

/-! ## A reported release -/

/-- A committed update lowered the entry by one. -/
def Ledger.Released (L : Ledger) : Prop := ∃ a ∈ L.log, a.moved = -1

/-- Nothing was committed yet to the version `stored`, and the next direct read is the first. -/
structure Ledger.Untouched (stored : Policy) (L : Ledger) : Prop where
  policy : L.policy = stored
  decoded : L.decoded = []

/-- And the cached object is the stored one, or its entry outlasts the attempts that are left. -/
structure Ledger.Lasting (key : Generation) (stored : Policy) (left : ℕ) (L : Ledger) : Prop
    extends L.Untouched stored where
  cached : L.cached = stored ∨
    L.cached.resourceVersion ≠ stored.resourceVersion ∧ (left : ℤ) ≤ L.cached.count key

section

variable {key : Generation} {stored : Policy} {L L' : Ledger}

theorem Policy.decodedInto_nil (p : Policy) : p.decodedInto [] = p := by
  simp [Policy.decodedInto, CountMap.decodeInto, Policy.withCounts]

theorem Ledger.Lasting.mono {n : ℕ} (h : L.Lasting key stored (n + 1)) :
    L.Lasting key stored n := by
  refine ⟨h.toUntouched, h.cached.imp_right fun ⟨hrv, hle⟩ => ⟨hrv, ?_⟩⟩
  omega

/-- A cached entry that outlasts the attempts is positive. -/
theorem Ledger.Lasting.count_pos {n : ℕ} (h : L.Lasting key stored (n + 1))
    (hpos : 0 < stored.count key) : 0 < L.cached.count key := by
  rcases h.cached with heq | ⟨-, hle⟩
  · rwa [heq]
  · omega

/-- An update of the stored version is a release. -/
theorem Ledger.released_after (L : Ledger) (caller : Caller) {p : Policy} (t : Time)
    (hcount : p.count key = L.policy.count key) :
    (L.after key caller (p.stampCount key (p.count key + -1) t) true).Released := by
  refine ⟨_, List.mem_cons_self, ?_⟩
  show (p.stampCount key (p.count key + -1) t).count key - L.policy.count key = -1
  rw [Policy.count_stampCount]
  omega

/-- A conflict takes one from the cached entry. -/
theorem Ledger.Lasting.refused {n : ℕ} (h : L.Lasting key stored (n + 1))
    (hrv : L.cached.resourceVersion ≠ stored.resourceVersion) (t : Time) :
    (L.after key (.decrement .cached key) (L.cached.stampCount key (L.cached.count key + -1) t)
      false).Lasting key stored n := by
  obtain heq | ⟨-, hle⟩ := h.cached
  · exact absurd (congrArg Policy.resourceVersion heq) hrv
  refine ⟨⟨h.policy, h.decoded⟩, .inr ⟨?_, ?_⟩⟩
  · rw [Ledger.resourceVersion_cached_after]
    exact hrv
  · rw [Policy.count, Ledger.counts_cached_after]
    split
    · have hcount := Policy.count_stampCount L.cached key (L.cached.count key + -1) t
      rw [Policy.count] at hcount
      omega
    · have hcount : L.cached.status.unavailableNodeCountMap.get key = L.cached.count key := rfl
      omega

/-- The attempts through a cache that is not refreshed. -/
theorem attempting_cached (n : ℕ) :
    Attempting key false (fun _ => .commits) Eq .cached (.decrement .cached key) (-1)
      (Ledger.Lasting key stored (n + 1))
      (fun p L => L.Lasting key stored (n + 1) ∧ L.cached = p) (Ledger.Lasting key stored n)
      Ledger.Released where
  others hR h := hR ▸ h
  fetches h := h
  unread h := h.mono
  reads h _ := ⟨h, rfl⟩
  keeps hR h := hR ▸ h
  gives h := h.1.mono
  writes := by
    rintro L p t r L' ⟨h, rfl⟩ hwrite
    have hstored := h.policy
    simp only [Ledger.write] at hwrite
    split at hwrite
    · rename_i hrv
      obtain ⟨rfl, rfl⟩ := Prod.mk.inj hwrite
      refine .of_ok (L.released_after _ t ?_)
      rcases h.cached with heq | ⟨hne, -⟩
      · rw [heq, hstored]
      · exact absurd (hrv.trans (congrArg Policy.resourceVersion hstored)) hne
    · rename_i hrv
      obtain ⟨rfl, rfl⟩ := Prod.mk.inj hwrite
      exact .of_error (h.refused (hstored ▸ hrv) t) _

/-- The direct attempts. -/
theorem attempting_api : Attempting key false (fun _ => .commits) Eq .api (.decrement .api key) (-1)
    (Ledger.Untouched stored) (fun p L => L.Untouched stored ∧ p = stored) (Ledger.Untouched stored)
    Ledger.Released where
  others hR h := hR ▸ h
  fetches h := h
  unread h := h
  reads h _ := ⟨h, by rw [Ledger.shown, h.policy, h.decoded, Policy.decodedInto_nil]⟩
  keeps hR h := hR ▸ h
  gives h := h.1
  writes := by
    rintro L p t r L' ⟨h, rfl⟩ hwrite
    have hstored := h.policy
    have hrv : (p.stampCount key (p.count key + -1) t).resourceVersion =
        L.policy.resourceVersion := by
      rw [hstored]
      rfl
    simp only [Ledger.write, if_pos hrv] at hwrite
    obtain ⟨rfl, rfl⟩ := Prod.mk.inj hwrite
    exact .of_ok (L.released_after _ t (by rw [hstored]))

/-- A positive entry is released when the cached object is the stored one or outlasts the cached
attempts. -/
theorem accounts_release (hpos : 0 < stored.count key)
    (h : L.Lasting key stored defaultRetry) :
    Accounts key false (fun _ => .commits) Eq (decrementUnavailableNodeCount key)
      (fun r L => r = .ok () → L.Released) L := by
  refine Follows.bind (accounts_tryDecrementing attempting_cached
    (fun n L hL hle => absurd (hL.count_pos hpos) (Int.not_lt.mpr hle)) (by decide) h) ?_
  rintro (e | _) L - h
  · obtain ⟨left, h⟩ := h.2 e rfl
    refine (accounts_tryDecrementing (I := fun _ => Ledger.Untouched stored)
      (fun _ => attempting_api) (fun n L hL hle => ?_) (by decide) h.toUntouched).mono
      fun r L _ h => h.1
    rw [Ledger.shown, hL.policy, hL.decoded, Policy.decodedInto_nil] at hle
    exact absurd hpos (Int.not_lt.mpr hle)
  · exact fun _ => h.1 rfl

end

/-! ## Executions of a retried body -/

section

variable {W : Type} {env : Env Api W} (retriable : Err → Bool) {body : Proc (Except Err Unit)}
  {w w₁ w' : W} {tr tr' : List (Called Api)} {e : Err} {r : Except Err Unit}

/-- The first attempt succeeds. -/
theorem Exec.onError_done (n : ℕ) (h : Exec env body w tr (.ok ()) w') :
    ∃ tr', Exec env (onError retriable (n + 1) body) w tr' (.ok ()) w' := by
  rw [onError_succ]
  exact ⟨_, h.bind .ret⟩

/-- The only attempt fails. -/
theorem Exec.onError_last (h : Exec env body w tr (.error e) w') :
    ∃ tr', Exec env (onError retriable 1 body) w tr' (.error e) w' := by
  rw [onError_succ]
  refine ⟨tr ++ [], h.bind ?_⟩
  simp only [ne_eq, not_true_eq_false, and_false, if_false]
  exact .ret

/-- The first attempt fails, and the others follow. -/
theorem Exec.onError_again (n : ℕ) (h : Exec env body w tr (.error e) w₁)
    (he : retriable e = true) (hrest : Exec env (onError retriable (n + 1) body) w₁ tr' r w') :
    ∃ tr'', Exec env (onError retriable (n + 2) body) w tr'' r w' := by
  rw [onError_succ]
  refine ⟨tr ++ tr', h.bind ?_⟩
  simp only [he, ne_eq, Nat.succ_ne_zero, not_false_eq_true, and_self, if_true]
  exact hrest

end

/-! ## Releases that nothing did -/

section

variable {key : Generation} {stored : Policy} {L : Ledger}

/-- Nothing was released. -/
def Ledger.Idle (L : Ledger) : Prop := ∀ a ∈ L.log, a.moved = 0

theorem Ledger.Idle.not_released (h : L.Idle) : ¬ L.Released := by
  rintro ⟨a, ha, hmoved⟩
  rw [h a ha] at hmoved
  cases hmoved

/-- One attempt to release. -/
def releaseAttempt (reader : Client) (key : Generation) : Proc (Except Err Unit) := do
  match ← ask (.getPolicy reader (.decrement reader key)) with
  | .error e => return .error e
  | .ok policy =>
    if policy.count key ≤ 0 then return .ok ()
    else
      let now ← ask .now
      ask (.updatePolicyStatus (.decrement reader key)
        (policy.stampCount key (policy.count key - 1) now))

theorem tryDecrementing_eq (reader : Client) (key : Generation) (steps : ℕ) :
    tryDecrementingUnavailableNodeCount reader key steps =
      onError allErrors steps (releaseAttempt reader key) := rfl

/-- An attempt that finds nothing to release. -/
theorem exec_nothing_held (reader : Client) (h : (L.shown reader).count key ≤ 0) :
    ∃ tr, Exec (ledgerEnv key false fun _ => .commits) (releaseAttempt reader key) L tr (.ok ())
      L := by
  have hread : (ledgerEnv key false fun _ => .commits).serve L
      (.getPolicy reader (.decrement reader key)) (.ok (L.shown reader)) L := by
    cases reader <;> exact ⟨rfl, fun p hp => (Except.ok.inj hp).symm⟩
  have hret : Exec (ledgerEnv key false fun _ => .commits)
      (if (L.shown reader).count key ≤ 0 then return .ok () else
        ask .now >>= fun now => ask (.updatePolicyStatus (.decrement reader key)
          ((L.shown reader).stampCount key ((L.shown reader).count key - 1) now)))
      L [] (.ok ()) L := by
    rw [if_pos h]
    exact .ret
  exact ⟨_, .call hread hret⟩

/-- The ledger after a cached attempt that conflicts. -/
def Ledger.conflicted (key : Generation) (L : Ledger) : Ledger :=
  L.after key (.decrement .cached key) (L.cached.stampCount key (L.cached.count key - 1) 0) false

/-- An attempt that conflicts. -/
theorem exec_conflict (hpos : 0 < L.cached.count key)
    (hrv : L.cached.resourceVersion ≠ L.policy.resourceVersion) :
    ∃ tr, Exec (ledgerEnv key false fun _ => .commits) (releaseAttempt .cached key) L tr
      (.error .conflict) (L.conflicted key) := by
  have hread : (ledgerEnv key false fun _ => .commits).serve L
      (.getPolicy .cached (.decrement .cached key)) (.ok L.cached) L :=
    ⟨rfl, fun p hp => (Except.ok.inj hp).symm⟩
  have hnow : (ledgerEnv key false fun _ => .commits).serve L .now (0 : Time) L := rfl
  have hwrite : (ledgerEnv key false fun _ => .commits).serve L
      (.updatePolicyStatus (.decrement .cached key)
        (L.cached.stampCount key (L.cached.count key - 1) 0)) (.error .conflict)
      (L.conflicted key) := (if_neg hrv).symm
  have hrest : Exec (ledgerEnv key false fun _ => .commits)
      (if L.cached.count key ≤ 0 then return .ok () else
        ask .now >>= fun now => ask (.updatePolicyStatus (.decrement .cached key)
          (L.cached.stampCount key (L.cached.count key - 1) now)))
      L [⟨.now, (0 : Time)⟩, ⟨.updatePolicyStatus (.decrement .cached key)
        (L.cached.stampCount key (L.cached.count key - 1) 0), .error .conflict⟩] (.error .conflict)
      (L.conflicted key) := by
    rw [if_neg (by omega)]
    exact .call hnow (.call hwrite .ret)
  exact ⟨_, .call hread hrest⟩

/-- A conflict lowers the cached entry. -/
theorem Ledger.count_conflicted (hpos : 0 < L.cached.count key) :
    (L.conflicted key).cached.count key = L.cached.count key - 1 := by
  have hshares : L.shares (.decrement .cached key) = true := by
    refine decide_eq_true fun hnil => ?_
    rw [Policy.count, hnil] at hpos
    exact Int.lt_irrefl 0 hpos
  rw [Policy.count, Ledger.conflicted, Ledger.counts_cached_after, if_pos hshares]
  exact Policy.count_stampCount _ _ _ _

/-- The `n + 1` attempts of a cached release commit nothing.  They report a release if there are more
of them than the cached entry counts. -/
def UsesUp (key : Generation) (stored : Policy) (n : ℕ) (L : Ledger) : Prop :=
  ∃ tr L', Exec (ledgerEnv key false fun _ => .commits)
      (tryDecrementingUnavailableNodeCount .cached key (n + 1)) L tr
      (if L.cached.count key ≤ n then .ok () else .error .conflict) L' ∧
    L'.Untouched stored ∧ L'.Idle

theorem Ledger.Untouched.conflicted {L : Ledger} (h : L.Untouched stored) :
    (L.conflicted key).Untouched stored :=
  ⟨h.policy, h.decoded⟩

theorem Ledger.Idle.conflicted {L : Ledger} (h : L.Idle) : (L.conflicted key).Idle := by
  intro a ha
  rcases List.mem_cons.mp ha with rfl | ha
  · rfl
  · exact h a ha

/-- With nothing to release the first attempt returns. -/
theorem usesUp_of_nothing_held {L : Ledger} (hL : L.Untouched stored) (hidle : L.Idle)
    (hzero : L.cached.count key ≤ 0) (n : ℕ) : UsesUp key stored n L := by
  obtain ⟨_, hx⟩ := exec_nothing_held .cached hzero
  obtain ⟨tr, hx⟩ := hx.onError_done allErrors n
  refine ⟨tr, L, ?_, hL, hidle⟩
  rw [if_pos (by omega)]
  exact hx

/-- **The cached attempts on an old version** use the cached entry up, one by one. -/
theorem usesUp_of_behind (n : ℕ) : ∀ {L : Ledger}, L.Untouched stored →
    L.cached.resourceVersion ≠ stored.resourceVersion → L.Idle → UsesUp key stored n L := by
  induction n with
  | zero =>
    intro L hL hrv hidle
    by_cases hzero : L.cached.count key ≤ 0
    · exact usesUp_of_nothing_held hL hidle hzero 0
    · obtain ⟨_, hx⟩ := exec_conflict (Int.not_le.mp hzero) (hL.policy ▸ hrv)
      obtain ⟨tr, hx⟩ := hx.onError_last allErrors
      refine ⟨tr, L.conflicted key, ?_, hL.conflicted, hidle.conflicted⟩
      rw [if_neg (by omega)]
      exact hx
  | succ n ih =>
    intro L hL hrv hidle
    by_cases hzero : L.cached.count key ≤ 0
    · exact usesUp_of_nothing_held hL hidle hzero (n + 1)
    · have hcount := Ledger.count_conflicted (Int.not_le.mp hzero)
      have hrv' : (L.conflicted key).cached.resourceVersion ≠ stored.resourceVersion := by
        rw [Ledger.conflicted, Ledger.resourceVersion_cached_after]
        exact hrv
      obtain ⟨_, hx⟩ := exec_conflict (Int.not_le.mp hzero) (hL.policy ▸ hrv)
      obtain ⟨_, L', hrest, hL', hi'⟩ := ih hL.conflicted hrv' hidle.conflicted
      obtain ⟨tr, hx⟩ := hx.onError_again allErrors n rfl hrest
      refine ⟨tr, L', ?_, hL', hi'⟩
      have hsame : (L.conflicted key).cached.count key ≤ n ↔ L.cached.count key ≤ (n + 1 : ℕ) := by
        omega
      rw [tryDecrementing_eq]
      simpa only [hsame] using hx

end

/-- **A reported release is real**, exactly when there is nothing to release, or the true entry is
positive and the cached object is the stored one or counts at least as many as there are cached
attempts: then `decrementUnavailableNodeCount` returns no error only after a committed update
lowered the entry by one. -/
theorem reported_release_real {key : Generation} {stored snapshot : Policy}
    (hearlier : snapshot.Precedes stored) :
    (∀ tr L', Exec (ledgerEnv key false fun _ => .commits) (decrementUnavailableNodeCount key)
        { policy := stored, cached := snapshot } tr (.ok ()) L' →
      (∃ a ∈ L'.log, a.moved = -1) ∨ stored.count key = 0) ↔
    stored.count key = 0 ∨
      0 < stored.count key ∧ (snapshot = stored ∨ defaultRetry ≤ snapshot.count key) := by
  constructor
  · intro h
    by_cases hzero : stored.count key = 0
    · exact .inl hzero
    refine .inr ?_
    -- a report without a release refutes the property
    have hno : ∀ {tr L'}, Exec (ledgerEnv key false fun _ => .commits)
        (decrementUnavailableNodeCount key) { policy := stored, cached := snapshot } tr (.ok ())
        L' → ¬ L'.Idle := fun hx hidle => (h _ _ hx).elim hidle.not_released hzero
    have hstart : Ledger.Untouched stored { policy := stored, cached := snapshot } := ⟨rfl, rfl⟩
    by_cases hcached : snapshot.count key ≤ 0
    · obtain ⟨_, hx⟩ := exec_nothing_held (L := { policy := stored, cached := snapshot }) .cached
        hcached
      obtain ⟨_, hx⟩ := hx.onError_done allErrors 4
      exact absurd nofun (hno (hx.bind .ret))
    rcases hearlier with rfl | hrv
    · exact ⟨by omega, .inl rfl⟩
    have huses : UsesUp key stored 4 { policy := stored, cached := snapshot } :=
      usesUp_of_behind 4 hstart (Nat.ne_of_lt hrv) nofun
    obtain ⟨_, L', hx, hL', hidle⟩ := huses
    by_cases hfew : snapshot.count key ≤ (4 : ℕ)
    · rw [if_pos hfew] at hx
      exact absurd hidle (hno (hx.bind .ret))
    rw [if_neg hfew] at hx
    refine ⟨?_, .inr (by simp only [defaultRetry]; omega)⟩
    by_contra hneg
    have hdirect : (L'.shown .api).count key ≤ 0 := by
      rw [Ledger.shown, hL'.policy, hL'.decoded, Policy.decodedInto_nil]
      omega
    obtain ⟨_, hlast⟩ := exec_nothing_held .api hdirect
    obtain ⟨_, hlast⟩ := hlast.onError_done allErrors 6
    exact absurd hidle (hno (hx.bind hlast))
  · rintro (hzero | ⟨hpos, hcond⟩) tr L' hx
    · exact .inr hzero
    refine .inl ?_
    rw [← Env.among_eq (ledgerEnv key false fun _ => .commits)] at hx
    refine (accounts_release hpos ⟨⟨rfl, rfl⟩, ?_⟩).exec hx rfl
    rcases hearlier with heq | hrv
    · exact .inl heq
    · exact hcond.imp id fun hle => ⟨Nat.ne_of_lt hrv, hle⟩

/-- A release that is reported although nothing is released. -/
def ReportsStale (snapshot stored : Policy) : Prop := snapshot.Precedes stored ∧ ∃ tr L',
  Exec (ledgerEnv 1 false fun _ => .commits) (decrementUnavailableNodeCount 1)
    { policy := stored, cached := snapshot } tr (.ok ()) L' ∧ L'.policy = stored

theorem reportsStale_of_play {snapshot stored : Policy} (hearlier : snapshot.Precedes stored)
    (h : ((decrementUnavailableNodeCount 1).play (answerLedger 1 false fun _ => .commits) 80
      { policy := stored, cached := snapshot }).any
      (fun x => x.2.1.isOk && decide (x.2.2.policy = stored)) = true) :
    ReportsStale snapshot stored := by
  obtain ⟨tr, r, L', hx, hP⟩ := exists_accounting 1 false (fun _ => .commits)
    (decrementUnavailableNodeCount 1) { policy := stored, cached := snapshot }
    (fun r L' => r.isOk && decide (L'.policy = stored)) h
  rw [Bool.and_eq_true, decide_eq_true_eq] at hP
  rcases r with e | ⟨⟩
  · cases hP.1
  · exact ⟨hearlier, tr, L', hx, hP.2⟩

/-- Two caches that are behind.  One still shows the version before the claim, and the release
returns at once.  The other is behind by a release of another node, and the conflicting attempts
count its entry down to zero. -/
theorem reported_release_stale : (roomyPolicy 2 1).count 1 = 1 ∧
    ReportsStale (roomyPolicy 1 0) (roomyPolicy 2 1) ∧
    ReportsStale (roomyPolicy 1 2) (roomyPolicy 2 1) :=
  ⟨rfl, reportsStale_of_play (.inr (by decide)) (by decide +kernel),
    reportsStale_of_play (.inr (by decide)) (by decide +kernel)⟩

/-- The cached entry outlasts the conflicting attempts, and the direct one releases. -/
theorem reported_release_real_behind : ∃ tr L',
    Exec (ledgerEnv 1 false fun _ => .commits) (decrementUnavailableNodeCount 1)
      { policy := roomyPolicy 2 1, cached := roomyPolicy 1 5 } tr (.ok ()) L' ∧
    L'.policy.count 1 = 0 ∧ ((∃ a ∈ L'.log, a.moved = -1) ∨ (roomyPolicy 2 1).count 1 = 0) := by
  obtain ⟨tr, r, L', hx, hP⟩ := exists_accounting 1 false (fun _ => .commits)
    (decrementUnavailableNodeCount 1) { policy := roomyPolicy 2 1, cached := roomyPolicy 1 5 }
    (fun r L' => r.isOk && L'.policy.count 1 == 0) (by decide +kernel)
  rw [Bool.and_eq_true, beq_iff_eq] at hP
  rcases r with e | ⟨⟩
  · cases hP.1
  · have hearlier : (roomyPolicy 1 5).Precedes (roomyPolicy 2 1) := .inr (by decide)
    exact ⟨tr, L', hx, hP.2, (reported_release_real hearlier).mpr
      (.inr ⟨by decide, .inr (by decide)⟩) tr L' hx⟩
