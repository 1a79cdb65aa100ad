import Mathlib.Data.List.Nodup
import FiberRuntime.Stack

/-!
# One-shot continuations under concurrent takes

`caml_continuation_use_noexc` empties the slot of a continuation and returns what it held.
Its usual path is a plain read of `Field(cont, 0)` followed by a compare-and-swap to
`Val_ptr(NULL)`; when `caml_domain_alone()` holds it reads and clears the slot while no other
domain runs.  `caml_continuation_replace` installs a chain into an empty slot.  This file runs
any number of domains through these atomic steps in every interleaving, keeps a ghost timeline
of the slot's content, and shows that every completed take behaves as an atomic exchange of the
slot with `NULL`.
-/

namespace FiberRuntime
namespace Continuation

/-- A stack chain, named by the address of its top `struct stack_info`. -/
abbrev Chain := Nat

/-- `caml_continuation_use`: the result of `caml_continuation_use_noexc`, raising on `NULL`. -/
def camlContinuationUse : Option Chain → Except Failure Chain
  | none => .error .continuationAlreadyResumed
  | some chain => .ok chain

/-- Where a domain stands inside `caml_continuation_use_noexc`. -/
inductive Phase where
  /-- Not inside a take. -/
  | idle
  /-- Read `Field(cont, 0)` at instant `start` and saw `seen`; the compare-and-swap is next. -/
  | read (seen : Option Chain) (start : Nat)
  deriving DecidableEq, Repr

/-- A completed take, as the ghost history records it. -/
structure Take where
  /-- The domain that made the call. -/
  domain : Nat
  /-- The instant of the call's first access to the slot. -/
  start : Nat
  /-- The instant of the step that decided the result. -/
  point : Nat
  /-- What `caml_continuation_use_noexc` returned; `none` is `Val_ptr(NULL)`. -/
  result : Option Chain
  /-- Ghost: the installation the take emptied, if it emptied one. -/
  consumed : Option (Chain × Nat)
  deriving DecidableEq, Repr

/-- The shared slot, every domain's position, and the ghost history. -/
structure Config where
  /-- `Field(cont, 0)`: a stack chain, or `none` for `Val_ptr(NULL)`. -/
  slot : Option Chain
  /-- The position of every domain. -/
  phase : Nat → Phase
  /-- Ghost: the slot's content when the continuation was created. -/
  initial : Option Chain
  /-- Ghost: how many chains `caml_continuation_replace` has installed. -/
  installs : Nat
  /-- Ghost: the tagged content of the slot at every earlier instant, oldest first. -/
  past : List (Option (Chain × Nat))
  /-- Ghost: the completed takes, in order of completion. -/
  takes : List Take

namespace Config

/-- The slot's content tagged with the installation that put it there (the initial chain is
installation `0`). -/
def tagged (cfg : Config) : Option (Chain × Nat) :=
  cfg.slot.map fun chain => (chain, cfg.installs)

/-- The index of the current instant. -/
def now (cfg : Config) : Nat := cfg.past.length

/-- The tagged content of the slot at every instant up to the current one. -/
def timeline (cfg : Config) : List (Option (Chain × Nat)) := cfg.past ++ [cfg.tagged]

/-- Append the take that `domain`, called at `start`, completes at the current instant. -/
def complete (cfg : Config) (domain start : Nat) (result : Option Chain)
    (consumed : Option (Chain × Nat)) : List Take :=
  cfg.takes ++ [{ domain, start, point := cfg.now, result, consumed }]

/-- The slot was `NULL` at some instant from `start` on. -/
def SawNull (cfg : Config) (start : Nat) : Prop :=
  ∃ k, start ≤ k ∧ cfg.timeline[k]? = some none

end Config

/-- A freshly created continuation holding `slot`, with every domain idle. -/
def initialConfig (slot : Option Chain) : Config where
  slot := slot
  phase := fun _ => .idle
  initial := slot
  installs := 0
  past := []
  takes := []

/-- One atomic step of one domain. -/
inductive Action where
  /-- The `caml_domain_alone()` path: read and clear the slot with no other domain running. -/
  | takeAlone (domain : Nat)
  /-- `v = Field(cont, 0)`. -/
  | read (domain : Nat)
  /-- `atomic_compare_exchange_strong(Op_atomic_val(cont), &v, null_stk)`. -/
  | compareAndSwap (domain : Nat)
  /-- `caml_continuation_replace(cont, chain)`, whose assertion requires an empty slot. -/
  | replace (domain : Nat) (chain : Chain)

/-- The transition of one atomic step, or `none` when the step is not enabled. -/
def step (cfg : Config) : Action → Option Config
  | .takeAlone domain =>
      if cfg.phase domain = .idle then
        some { cfg with
          slot := none
          past := cfg.timeline
          takes := cfg.complete domain cfg.now cfg.slot cfg.tagged }
      else none
  | .read domain =>
      if cfg.phase domain = .idle then
        some { cfg with
          phase := Function.update cfg.phase domain (.read cfg.slot cfg.now)
          past := cfg.timeline }
      else none
  | .compareAndSwap domain =>
      match cfg.phase domain with
      | .idle => none
      | .read seen start =>
          if cfg.slot = seen then
            some { cfg with
              slot := none
              phase := Function.update cfg.phase domain .idle
              past := cfg.timeline
              takes := cfg.complete domain start seen cfg.tagged }
          else
            some { cfg with
              phase := Function.update cfg.phase domain .idle
              past := cfg.timeline
              takes := cfg.complete domain start none none }
  | .replace domain chain =>
      if cfg.phase domain = .idle ∧ cfg.slot = none then
        some { cfg with
          slot := some chain
          installs := cfg.installs + 1
          past := cfg.timeline }
      else none

/-- Configurations reachable from a fresh continuation by any interleaving of steps. -/
inductive Reachable : Config → Prop where
  | initial (slot : Option Chain) : Reachable (initialConfig slot)
  | step {cfg next : Config} (action : Action) :
      Reachable cfg → step cfg action = some next → Reachable next

/-! ## Timelines -/

namespace Config

@[simp]
theorem timeline_length (cfg : Config) : cfg.timeline.length = cfg.now + 1 := by
  simp [timeline, now]

theorem timeline_now (cfg : Config) : cfg.timeline[cfg.now]? = some cfg.tagged :=
  List.getElem?_concat_length cfg.past cfg.tagged

theorem le_now_of_timeline {cfg : Config} {k : Nat} {entry : Option (Chain × Nat)}
    (found : cfg.timeline[k]? = some entry) : k ≤ cfg.now := by
  have := (List.getElem?_eq_some_iff.mp found).1
  simp at this
  omega

theorem sawNull_of_empty (cfg : Config) {start : Nat} (empty : cfg.slot = none)
    (early : start ≤ cfg.now) : cfg.SawNull start :=
  ⟨cfg.now, early, by rw [timeline_now]; simp [tagged, empty]⟩

end Config

section Growth

variable {cfg next : Config}

theorem now_of_grown (grown : next.past = cfg.timeline) : next.now = cfg.now + 1 := by
  simp [Config.now, grown]

theorem timeline_of_grown (grown : next.past = cfg.timeline) {k : Nat} (early : k ≤ cfg.now) :
    next.timeline[k]? = cfg.timeline[k]? := by
  rw [Config.timeline, grown]
  exact List.getElem?_append_left (by simp; omega)

theorem sawNull_of_grown (grown : next.past = cfg.timeline) {start : Nat}
    (saw : cfg.SawNull start) : next.SawNull start := by
  obtain ⟨k, early, null⟩ := saw
  exact ⟨k, early, (timeline_of_grown grown (Config.le_now_of_timeline null)).trans null⟩

end Growth

/-! ## What one step can do -/

/-- The five shapes of an enabled step. -/
inductive Transition (cfg : Config) : Config → Prop where
  | takeAlone (domain : Nat) (idle : cfg.phase domain = .idle) :
      Transition cfg { cfg with
        slot := none, past := cfg.timeline
        takes := cfg.complete domain cfg.now cfg.slot cfg.tagged }
  | read (domain : Nat) (idle : cfg.phase domain = .idle) :
      Transition cfg { cfg with
        phase := Function.update cfg.phase domain (.read cfg.slot cfg.now)
        past := cfg.timeline }
  | swapped (domain : Nat) (seen : Option Chain) (start : Nat)
      (reading : cfg.phase domain = .read seen start) (same : cfg.slot = seen) :
      Transition cfg { cfg with
        slot := none, phase := Function.update cfg.phase domain .idle, past := cfg.timeline
        takes := cfg.complete domain start seen cfg.tagged }
  | missed (domain : Nat) (seen : Option Chain) (start : Nat)
      (reading : cfg.phase domain = .read seen start) (changed : cfg.slot ≠ seen) :
      Transition cfg { cfg with
        phase := Function.update cfg.phase domain .idle, past := cfg.timeline
        takes := cfg.complete domain start none none }
  | replace (domain : Nat) (chain : Chain) (idle : cfg.phase domain = .idle)
      (empty : cfg.slot = none) :
      Transition cfg { cfg with
        slot := some chain, installs := cfg.installs + 1, past := cfg.timeline }

theorem transition_of_step {cfg next : Config} {action : Action}
    (stepped : step cfg action = some next) : Transition cfg next := by
  cases action with
  | takeAlone domain =>
      by_cases idle : cfg.phase domain = .idle
      · simp only [step, idle, if_true, Option.some.injEq] at stepped
        exact stepped ▸ .takeAlone domain idle
      · simp [step, idle] at stepped
  | read domain =>
      by_cases idle : cfg.phase domain = .idle
      · simp only [step, idle, if_true, Option.some.injEq] at stepped
        exact stepped ▸ .read domain idle
      · simp [step, idle] at stepped
  | compareAndSwap domain =>
      cases reading : cfg.phase domain with
      | idle => simp [step, reading] at stepped
      | read seen start =>
          by_cases same : cfg.slot = seen
          · simp only [step, reading, same, if_true, Option.some.injEq] at stepped
            exact stepped ▸ .swapped domain seen start reading same
          · simp only [step, reading, same, if_false, Option.some.injEq] at stepped
            exact stepped ▸ .missed domain seen start reading same
  | replace domain chain =>
      by_cases enabled : cfg.phase domain = .idle ∧ cfg.slot = none
      · simp only [step, enabled, and_self, if_true, Option.some.injEq] at stepped
        exact stepped ▸ .replace domain chain enabled.1 enabled.2
      · simp [step, enabled] at stepped

theorem Transition.grown {cfg next : Config} (transition : Transition cfg next) :
    next.past = cfg.timeline := by
  cases transition <;> rfl

theorem timeline_of_grown_cases {cfg next : Config} (grown : next.past = cfg.timeline) {k : Nat}
    {entry : Option (Chain × Nat)} (found : next.timeline[k]? = some entry) :
    (k ≤ cfg.now ∧ cfg.timeline[k]? = some entry) ∨ (k = cfg.now + 1 ∧ entry = next.tagged) := by
  have bound := Config.le_now_of_timeline found
  rw [now_of_grown grown] at bound
  rcases Nat.lt_or_eq_of_le bound with early | last
  · exact .inl ⟨by omega, (timeline_of_grown grown (by omega)).symm.trans found⟩
  · subst last
    rw [← now_of_grown grown, Config.timeline_now] at found
    exact .inr ⟨rfl, (Option.some.inj found).symm⟩

theorem sawNull_of_grown_cases {cfg next : Config} (grown : next.past = cfg.timeline)
    {start : Nat} (saw : next.SawNull start) : cfg.SawNull start ∨ next.slot = none := by
  obtain ⟨k, early, null⟩ := saw
  rcases timeline_of_grown_cases grown null with ⟨-, old⟩ | ⟨-, last⟩
  · exact .inl ⟨k, early, old⟩
  · exact .inr (by simpa [Config.tagged] using last.symm)

/-! ## The invariant -/

/-- The installation numbers that completed takes emptied, in order of completion. -/
def consumedInstallations (takes : List Take) : List Nat :=
  takes.filterMap fun take => take.consumed.map Prod.snd

@[simp]
theorem consumedInstallations_complete (cfg : Config) (domain start : Nat)
    (result : Option Chain) (consumed : Option (Chain × Nat)) :
    consumedInstallations (cfg.complete domain start result consumed) =
      consumedInstallations cfg.takes ++ (consumed.map Prod.snd).toList := by
  cases consumed <;> simp [consumedInstallations, Config.complete]

/-- A completed take returned a chain only if the slot held that installation of it at the
deciding instant and was `NULL` right after; it returned `NULL` only if the slot was `NULL` at
some instant between its first access and its deciding step. -/
def Linearized (timeline : List (Option (Chain × Nat))) (take : Take) : Prop :=
  take.start ≤ take.point ∧
  (∀ chain, take.result = some chain → ∃ n, take.consumed = some (chain, n) ∧
    timeline[take.point]? = some (some (chain, n)) ∧ timeline[take.point + 1]? = some none) ∧
  (take.result = none → take.consumed = none ∧
    ∃ k, take.start ≤ k ∧ k ≤ take.point ∧ timeline[k]? = some none)

theorem Linearized.grown {cfg next : Config} (grown : next.past = cfg.timeline) {take : Take}
    (decided : take.point < cfg.now) (linearized : Linearized cfg.timeline take) :
    Linearized next.timeline take := by
  obtain ⟨early, returned, missed⟩ := linearized
  refine ⟨early, fun chain result => ?_, fun result => ?_⟩
  · obtain ⟨n, consumed, held, emptied⟩ := returned chain result
    exact ⟨n, consumed, (timeline_of_grown grown (by omega)).trans held,
      (timeline_of_grown grown (by omega)).trans emptied⟩
  · obtain ⟨consumed, k, after, before, null⟩ := missed result
    exact ⟨consumed, k, after, before, (timeline_of_grown grown (by omega)).trans null⟩

theorem linearized_of_emptied {cfg next : Config} (grown : next.past = cfg.timeline)
    (emptied : next.slot = none) {domain start : Nat} (early : start ≤ cfg.now) :
    Linearized next.timeline
      { domain, start, point := cfg.now, result := cfg.slot, consumed := cfg.tagged } := by
  have held : next.timeline[cfg.now]? = some cfg.tagged :=
    (timeline_of_grown grown le_rfl).trans cfg.timeline_now
  have after : next.timeline[cfg.now + 1]? = some none := by
    rw [← now_of_grown grown, Config.timeline_now]
    simp [Config.tagged, emptied]
  refine ⟨early, fun chain returned => ?_, fun returned => ?_⟩
  · exact ⟨cfg.installs, by simp_all [Config.tagged], by simp_all [Config.tagged], after⟩
  · exact ⟨by simp_all [Config.tagged], cfg.now, early, le_rfl, by simp_all [Config.tagged]⟩

theorem mem_complete {cfg : Config} {domain start : Nat} {result : Option Chain}
    {consumed : Option (Chain × Nat)} {take : Take} :
    take ∈ cfg.complete domain start result consumed ↔
      take ∈ cfg.takes ∨ take = { domain, start, point := cfg.now, result, consumed } := by
  simp [Config.complete]

/-- What holds of every reachable configuration. -/
structure Invariant (cfg : Config) : Prop where
  reading : ∀ domain seen start, cfg.phase domain = .read seen start →
    start ≤ cfg.now ∧ (cfg.slot = seen ∨ cfg.SawNull start)
  linearized : ∀ take ∈ cfg.takes, take.point < cfg.now ∧ Linearized cfg.timeline take
  fresh : ∀ n ∈ consumedInstallations cfg.takes,
    n < cfg.installs ∨ (n = cfg.installs ∧ cfg.slot = none)
  nodup : (consumedInstallations cfg.takes).Nodup
  conservation : (consumedInstallations cfg.takes).length + cfg.slot.toList.length =
    cfg.installs + cfg.initial.toList.length
  nullStays : cfg.installs = 0 → cfg.SawNull 0 → cfg.slot = none
  firstInstallation : ∀ (k : Nat) (chain : Chain), cfg.timeline[k]? = some (some (chain, 0)) →
    cfg.initial = some chain

/-! ## Every step keeps the invariant -/

section Preservation

variable {cfg next : Config}

theorem Transition.reading (transition : Transition cfg next) (inv : Invariant cfg)
    (domain : Nat) (seen : Option Chain) (start : Nat)
    (reading : next.phase domain = .read seen start) :
    start ≤ next.now ∧ (next.slot = seen ∨ next.SawNull start) := by
  have grown := transition.grown
  have now_eq := now_of_grown grown
  cases transition with
  | takeAlone acting idle =>
      have early := (inv.reading domain seen start reading).1
      exact ⟨by omega, .inr (Config.sawNull_of_empty _ rfl (by omega))⟩
  | read acting idle =>
      by_cases same : domain = acting
      · subst same
        simp only [Function.update_same, Phase.read.injEq] at reading
        obtain ⟨rfl, rfl⟩ := reading
        exact ⟨by omega, .inl rfl⟩
      · simp only [Function.update_noteq same] at reading
        obtain ⟨early, current⟩ := inv.reading domain seen start reading
        exact ⟨by omega, current.imp id (sawNull_of_grown grown)⟩
  | swapped acting seen' start' reading' same' =>
      by_cases same : domain = acting
      · subst same
        simp at reading
      · simp only [Function.update_noteq same] at reading
        have early := (inv.reading domain seen start reading).1
        exact ⟨by omega, .inr (Config.sawNull_of_empty _ rfl (by omega))⟩
  | missed acting seen' start' reading' changed =>
      by_cases same : domain = acting
      · subst same
        simp at reading
      · simp only [Function.update_noteq same] at reading
        obtain ⟨early, current⟩ := inv.reading domain seen start reading
        exact ⟨by omega, current.imp id (sawNull_of_grown grown)⟩
  | replace acting chain idle empty =>
      have early := (inv.reading domain seen start reading).1
      exact ⟨by omega, .inr (sawNull_of_grown grown (cfg.sawNull_of_empty empty early))⟩

theorem Transition.linearized (transition : Transition cfg next) (inv : Invariant cfg) :
    ∀ take ∈ next.takes, take.point < next.now ∧ Linearized next.timeline take := by
  have grown := transition.grown
  have now_eq := now_of_grown grown
  have old : ∀ take ∈ cfg.takes, take.point < next.now ∧ Linearized next.timeline take :=
    fun take member =>
      have ⟨decided, linearized⟩ := inv.linearized take member
      ⟨by omega, linearized.grown grown decided⟩
  cases transition with
  | takeAlone acting idle =>
      intro take member
      rcases mem_complete.mp member with member | rfl
      · exact old take member
      · exact ⟨by dsimp only; omega, linearized_of_emptied grown rfl le_rfl⟩
  | read acting idle => exact old
  | swapped acting seen start reading same =>
      have early := (inv.reading acting seen start reading).1
      subst same
      intro take member
      rcases mem_complete.mp member with member | rfl
      · exact old take member
      · exact ⟨by dsimp only; omega, linearized_of_emptied grown rfl early⟩
  | missed acting seen start reading changed =>
      obtain ⟨early, current⟩ := inv.reading acting seen start reading
      obtain ⟨k, after, null⟩ := current.resolve_left changed
      have before := Config.le_now_of_timeline null
      intro take member
      rcases mem_complete.mp member with member | rfl
      · exact old take member
      · refine ⟨by dsimp only; omega, early, fun _ returned => ?_, fun _ => ?_⟩
        · simp at returned
        · exact ⟨rfl, k, after, before, (timeline_of_grown grown before).trans null⟩
  | replace acting chain idle empty => exact old

theorem Transition.fresh (transition : Transition cfg next) (inv : Invariant cfg) :
    ∀ n ∈ consumedInstallations next.takes,
      n < next.installs ∨ (n = next.installs ∧ next.slot = none) := by
  have bounded : ∀ n ∈ consumedInstallations cfg.takes, n ≤ cfg.installs := fun n member => by
    rcases inv.fresh n member with lt | ⟨eq, -⟩ <;> omega
  cases transition with
  | takeAlone acting idle =>
      intro n member
      simp only [consumedInstallations_complete, List.mem_append] at member
      have : n ≤ cfg.installs := member.elim (bounded n) fun new => by
        cases slot : cfg.slot <;> simp_all [Config.tagged]
      exact (Nat.lt_or_eq_of_le this).imp id fun eq => ⟨eq, rfl⟩
  | read acting idle => exact inv.fresh
  | swapped acting seen start reading same =>
      intro n member
      simp only [consumedInstallations_complete, List.mem_append] at member
      have : n ≤ cfg.installs := member.elim (bounded n) fun new => by
        cases slot : cfg.slot <;> simp_all [Config.tagged]
      exact (Nat.lt_or_eq_of_le this).imp id fun eq => ⟨eq, rfl⟩
  | missed acting seen start reading changed =>
      simpa [consumedInstallations_complete] using inv.fresh
  | replace acting chain idle empty =>
      exact fun n member => .inl (Nat.lt_succ_of_le (bounded n member))

theorem nodup_of_emptied (inv : Invariant cfg) :
    (consumedInstallations cfg.takes ++ (cfg.tagged.map Prod.snd).toList).Nodup := by
  cases slot : cfg.slot with
  | none => simpa [Config.tagged, slot] using inv.nodup
  | some chain =>
      have unused : cfg.installs ∉ consumedInstallations cfg.takes := fun member => by
        rcases inv.fresh _ member with lt | ⟨-, empty⟩
        · omega
        · simp [slot] at empty
      simpa [Config.tagged, slot, List.nodup_append, unused] using inv.nodup

theorem Transition.nodup (transition : Transition cfg next) (inv : Invariant cfg) :
    (consumedInstallations next.takes).Nodup := by
  cases transition with
  | takeAlone acting idle => simpa using nodup_of_emptied inv
  | read acting idle => exact inv.nodup
  | swapped acting seen start reading same => simpa using nodup_of_emptied inv
  | missed acting seen start reading changed => simpa using inv.nodup
  | replace acting chain idle empty => exact inv.nodup

theorem Transition.conservation (transition : Transition cfg next) (inv : Invariant cfg) :
    (consumedInstallations next.takes).length + next.slot.toList.length =
      next.installs + next.initial.toList.length := by
  have kept := inv.conservation
  cases transition with
  | takeAlone acting idle =>
      cases slot : cfg.slot <;> simp_all [Config.tagged]
  | read acting idle => exact kept
  | swapped acting seen start reading same =>
      subst same
      cases slot : cfg.slot <;> simp_all [Config.tagged]
  | missed acting seen start reading changed => simpa using kept
  | replace acting chain idle empty =>
      simp_all
      omega

theorem Transition.nullStays (transition : Transition cfg next) (inv : Invariant cfg)
    (untouched : next.installs = 0) (saw : next.SawNull 0) : next.slot = none := by
  have grown := transition.grown
  cases transition with
  | takeAlone acting idle => rfl
  | read acting idle =>
      exact (sawNull_of_grown_cases grown saw).elim (inv.nullStays untouched) id
  | swapped acting seen start reading same => rfl
  | missed acting seen start reading changed =>
      exact (sawNull_of_grown_cases grown saw).elim (inv.nullStays untouched) id
  | replace acting chain idle empty => simp at untouched

theorem Transition.firstInstallation (transition : Transition cfg next) (inv : Invariant cfg)
    (k : Nat) (chain : Chain) (found : next.timeline[k]? = some (some (chain, 0))) :
    next.initial = some chain := by
  have grown := transition.grown
  rcases timeline_of_grown_cases grown found with ⟨-, old⟩ | ⟨-, last⟩
  · cases transition <;> exact inv.firstInstallation k chain old
  · have current : cfg.tagged = some (chain, 0) → cfg.initial = some chain := fun tagged =>
      inv.firstInstallation cfg.now chain (by rw [cfg.timeline_now, tagged])
    cases transition <;> simp_all [Config.tagged]

theorem Transition.invariant (transition : Transition cfg next) (inv : Invariant cfg) :
    Invariant next where
  reading := transition.reading inv
  linearized := transition.linearized inv
  fresh := transition.fresh inv
  nodup := transition.nodup inv
  conservation := transition.conservation inv
  nullStays := transition.nullStays inv
  firstInstallation := transition.firstInstallation inv

end Preservation

theorem invariant_initialConfig (slot : Option Chain) : Invariant (initialConfig slot) where
  reading := by simp [initialConfig]
  linearized := by simp [initialConfig]
  fresh := by simp [initialConfig, consumedInstallations]
  nodup := by simp [initialConfig, consumedInstallations]
  conservation := by simp [initialConfig, consumedInstallations]
  nullStays := by
    rintro - ⟨k, -, null⟩
    have first : k = 0 := by simpa [Config.now, initialConfig] using Config.le_now_of_timeline null
    subst first
    simpa [Config.timeline, Config.tagged, initialConfig] using null
  firstInstallation := by
    intro k chain found
    have first : k = 0 := by simpa [Config.now, initialConfig] using Config.le_now_of_timeline found
    subst first
    simpa [Config.timeline, Config.tagged, initialConfig] using found

theorem Reachable.invariant {cfg : Config} (reachable : Reachable cfg) : Invariant cfg := by
  induction reachable with
  | initial slot => exact invariant_initialConfig slot
  | step action _ stepped ih => exact (transition_of_step stepped).invariant ih

theorem Reachable.foldlM {cfg next : Config} (reachable : Reachable cfg) {actions : List Action}
    (ran : actions.foldlM Continuation.step cfg = some next) : Reachable next := by
  induction actions generalizing cfg with
  | nil => simpa [← Option.some.inj ran] using reachable
  | cons action actions ih =>
      simp only [List.foldlM_cons] at ran
      cases stepped : Continuation.step cfg action with
      | none => simp [stepped] at ran
      | some middle => exact ih (.step action reachable stepped) (by simpa [stepped] using ran)

/-! ## Linearizability -/

theorem take_result_of_untouched {cfg : Config} (inv : Invariant cfg)
    (untouched : cfg.installs = 0) {take : Take} (member : take ∈ cfg.takes) :
    (take.result = cfg.initial ∧ take.consumed.isSome) ∨
      (take.result = none ∧ take.consumed = none) := by
  obtain ⟨-, returned, missed⟩ := (inv.linearized take member).2
  cases result : take.result with
  | none => exact .inr ⟨rfl, (missed result).1⟩
  | some chain =>
      obtain ⟨n, consumed, held, -⟩ := returned chain result
      have listed : n ∈ consumedInstallations cfg.takes :=
        List.mem_filterMap.mpr ⟨take, member, by simp [consumed]⟩
      have zero : n = 0 := by rcases inv.fresh n listed with lt | ⟨eq, -⟩ <;> omega
      subst zero
      exact .inl ⟨(inv.firstInstallation _ chain held).symm, by simp [consumed]⟩

theorem countP_obtained_eq_one {cfg : Config} (inv : Invariant cfg) {chain : Chain}
    (initial : cfg.initial = some chain) (untouched : cfg.installs = 0)
    (completed : cfg.takes ≠ []) :
    cfg.takes.countP (fun take => take.result == some chain) = 1 := by
  have counted : cfg.takes.countP (fun take => take.result == some chain) =
      (consumedInstallations cfg.takes).length := by
    rw [consumedInstallations, List.length_filterMap_eq_countP]
    refine List.countP_congr fun take member => ?_
    rcases take_result_of_untouched inv untouched member with ⟨result, consumed⟩ | ⟨result, consumed⟩
      <;> simp [result, consumed, initial]
  have total := inv.conservation
  rw [untouched, initial] at total
  obtain ⟨take, member⟩ := List.exists_mem_of_ne_nil _ completed
  rw [counted]
  rcases take_result_of_untouched inv untouched member with ⟨-, consumed⟩ | ⟨result, -⟩
  · obtain ⟨entry, found⟩ := Option.isSome_iff_exists.mp consumed
    have listed : entry.2 ∈ consumedInstallations cfg.takes :=
      List.mem_filterMap.mpr ⟨take, member, by simp [found]⟩
    have := List.length_pos_of_mem listed
    cases cfg.slot <;> simp at total <;> omega
  · obtain ⟨-, k, -, -, null⟩ := (inv.linearized take member).2.2.2 result
    have empty := inv.nullStays untouched ⟨k, Nat.zero_le k, null⟩
    simpa [empty] using total

/-- Every interleaving of takes and replaces on one continuation is linearizable to an atomic
exchange of the slot with `NULL`: each completed take that returned a chain found that
installation in the slot at its deciding step and emptied it there, each take that returned
`NULL` overlapped an instant with an empty slot, and no installation is returned twice.
Without a replace, exactly one of the completed takes of the initial chain obtains it, and
`caml_continuation_use` raises for every other. -/
theorem continuation_take_linearizable {cfg : Config} (reachable : Reachable cfg) :
    (∀ take ∈ cfg.takes, Linearized cfg.timeline take) ∧
    (consumedInstallations cfg.takes).Nodup ∧
    ∀ chain, cfg.initial = some chain → cfg.installs = 0 → cfg.takes ≠ [] →
      cfg.takes.countP (fun take => take.result == some chain) = 1 ∧
      ∀ take ∈ cfg.takes, take.result ≠ some chain →
        camlContinuationUse take.result = .error .continuationAlreadyResumed := by
  have inv := reachable.invariant
  refine ⟨fun take member => (inv.linearized take member).2, inv.nodup,
    fun chain initial untouched completed => ⟨countP_obtained_eq_one inv initial untouched completed,
      fun take member other => ?_⟩⟩
  rcases take_result_of_untouched inv untouched member with ⟨result, -⟩ | ⟨result, -⟩
  · exact absurd (result.trans initial) other
  · simp [result, camlContinuationUse]

/-- Two domains read the slot of a continuation holding chain `7`, then race their
compare-and-swaps; domain `1` wins. -/
def raceActions : List Action := [.read 0, .read 1, .compareAndSwap 1, .compareAndSwap 0]

/-- The race completes two takes: domain `1`'s returns chain `7` and domain `0`'s returns `NULL`,
which `caml_continuation_use` turns into an exception; both are linearized. -/
theorem race_linearizable :
    ∃ cfg, raceActions.foldlM step (initialConfig (some 7)) = some cfg ∧
      cfg.takes.map (fun take => (take.domain, take.result)) = [(1, some 7), (0, none)] ∧
      (∀ take ∈ cfg.takes, Linearized cfg.timeline take) ∧
      (consumedInstallations cfg.takes).Nodup ∧
      ∀ chain, cfg.initial = some chain → cfg.installs = 0 → cfg.takes ≠ [] →
        cfg.takes.countP (fun take => take.result == some chain) = 1 ∧
        ∀ take ∈ cfg.takes, take.result ≠ some chain →
          camlContinuationUse take.result = .error .continuationAlreadyResumed :=
  ⟨_, rfl, rfl,
    continuation_take_linearizable (@Reachable.foldlM _ _ (.initial (some 7)) raceActions rfl)⟩

/-! ## No installation is lost or taken twice -/

/-- Each installation made (the initial chain as installation `0`, if there was one, and one per
`caml_continuation_replace`) is counted once: emptied by a completed take, or still in the slot;
an installation never made is counted nowhere. -/
def Accounted (cfg : Config) : Prop :=
  ∀ n, (consumedInstallations cfg.takes).count n +
      (if cfg.slot.isSome ∧ n = cfg.installs then 1 else 0) =
    if n ≤ cfg.installs ∧ (n ≠ 0 ∨ cfg.initial.isSome) then 1 else 0

theorem accounted_initialConfig (slot : Option Chain) : Accounted (initialConfig slot) := by
  intro n
  cases slot <;> by_cases zero : n = 0 <;> simp [initialConfig, consumedInstallations, zero]

section Accounting

variable {cfg next : Config}

theorem count_tagged (cfg : Config) (n : Nat) :
    ((cfg.tagged.map Prod.snd).toList).count n =
      if cfg.slot.isSome ∧ n = cfg.installs then 1 else 0 := by
  cases slot : cfg.slot <;> simp [Config.tagged, slot, List.count_singleton', eq_comm]

theorem Transition.accounted (transition : Transition cfg next) (accounted : Accounted cfg) :
    Accounted next := by
  intro n
  have before := accounted n
  cases transition with
  | takeAlone domain idle => simpa [count_tagged] using before
  | read domain idle => exact before
  | swapped domain seen start reading same =>
      subst same
      simpa [count_tagged] using before
  | missed domain seen start reading changed => simpa using before
  | replace domain chain idle empty =>
      have unmade := accounted (cfg.installs + 1)
      simp only [empty, Option.isSome_none, Bool.false_eq_true, false_and, if_false,
        Nat.add_zero, Nat.not_succ_le_self] at before unmade
      simp only [Option.isSome_some, true_and]
      by_cases last : n = cfg.installs + 1
      · subst last
        simpa using unmade
      · generalize cfg.initial.isSome = made at before ⊢
        cases made <;> simp only [Bool.false_eq_true, or_false, or_true, and_true] at before ⊢ <;>
          split_ifs at before ⊢ <;> omega

end Accounting

theorem Reachable.accounted {cfg : Config} (reachable : Reachable cfg) : Accounted cfg := by
  induction reachable with
  | initial slot => exact accounted_initialConfig slot
  | step action _ stepped ih => exact (transition_of_step stepped).accounted ih

theorem Invariant.consumed_result {cfg : Config} (inv : Invariant cfg) {take : Take}
    (member : take ∈ cfg.takes) {chain : Chain} {n : Nat}
    (consumed : take.consumed = some (chain, n)) : take.result = some chain := by
  obtain ⟨-, returned, missed⟩ := (inv.linearized take member).2
  cases result : take.result with
  | none => simp [(missed result).1] at consumed
  | some other =>
      obtain ⟨m, consumed', -⟩ := returned other result
      rw [consumed'] at consumed
      cases consumed
      rfl

/-- Under every interleaving of takes and replaces on one continuation, no chain put in its slot
is lost or taken twice: each installation made (the chain the continuation was created with,
installation `0`, and the chain of each `caml_continuation_replace`) was emptied by exactly one
completed take, which returned that chain, or else is still in the slot and was emptied by none;
no take emptied an installation never made. -/
theorem installation_taken_once {cfg : Config} (reachable : Reachable cfg) :
    (∀ n, (consumedInstallations cfg.takes).count n +
        (if cfg.slot.isSome ∧ n = cfg.installs then 1 else 0) =
      if n ≤ cfg.installs ∧ (n ≠ 0 ∨ cfg.initial.isSome) then 1 else 0) ∧
    ∀ take ∈ cfg.takes, ∀ chain n, take.consumed = some (chain, n) → take.result = some chain :=
  ⟨reachable.accounted, fun _ member _ _ consumed =>
    reachable.invariant.consumed_result member consumed⟩

/-- Domain `0` resumes the continuation created with chain `7`; domain `1` installs chain `9` in
its place, and domains `2` and `0` then race to take it, domain `2` winning. -/
def resumedRaceActions : List Action :=
  [.read 0, .compareAndSwap 0, .replace 1 9, .read 2, .read 0, .compareAndSwap 2,
    .compareAndSwap 0]

/-- The run completes three takes: domain `0` takes chain `7`, installation `0`; domain `2` takes
chain `9`, installation `1`; domain `0` then takes `NULL` and empties nothing. Each installation
is emptied once. -/
theorem resumed_race_taken_once :
    ∃ cfg, resumedRaceActions.foldlM step (initialConfig (some 7)) = some cfg ∧
      cfg.takes.map (fun take => (take.domain, take.result, take.consumed)) =
        [(0, some 7, some (7, 0)), (2, some 9, some (9, 1)), (0, none, none)] ∧
      (∀ n, (consumedInstallations cfg.takes).count n +
          (if cfg.slot.isSome ∧ n = cfg.installs then 1 else 0) =
        if n ≤ cfg.installs ∧ (n ≠ 0 ∨ cfg.initial.isSome) then 1 else 0) ∧
      ∀ take ∈ cfg.takes, ∀ chain n, take.consumed = some (chain, n) → take.result = some chain :=
  ⟨_, rfl, rfl,
    installation_taken_once (@Reachable.foldlM _ _ (.initial (some 7)) resumedRaceActions rfl)⟩

end Continuation
end FiberRuntime
