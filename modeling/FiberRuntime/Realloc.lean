import FiberRuntime.Store
import FiberRuntime.Rewrite

/-!
# Growing a stack of the store

`caml_try_realloc_stack` and its callers `caml_ensure_stack_capacity` and
`caml_maybe_expand_stack`, in the reachable states of the stack store.  A successful growth makes
a stack that was not live the current one; it takes over the old stack's handlers, parent, id and
local arenas, has room for the live words and the request, and holds the live words at its top,
relocated, with every pointer of the exception handler chain and of the frame-pointer chains into
the old stack moved along.
-/

namespace FiberRuntime

open Store

/-! ## The doubling loop's bounds -/

/-- A size the doubling loop asks for reaches `needed`, stays below twice the limit, and is at
least twice the size it started from: the `do`/`while` doubles once before it tests. -/
theorem doubleStackSize_sized {maxStackWsize needed : Nat}
    (representable : 2 * maxStackWsize < wordModulus) :
    ∀ {fuel wsize wsize' : Nat},
      doubleStackSize maxStackWsize needed fuel wsize = some (.sized wsize') →
        needed ≤ wsize' ∧ wsize' < 2 * maxStackWsize ∧ 2 * wsize ≤ wsize'
  | 0, _, _, ran => by cases ran
  | fuel + 1, wsize, wsize', ran => by
      unfold doubleStackSize at ran
      split at ran
      · cases ran
      · have doubled : wsize * 2 % wordModulus = wsize * 2 := Nat.mod_eq_of_lt (by omega)
        rw [doubled] at ran
        split at ran
        · have further := doubleStackSize_sized representable ran
          omega
        · cases ran
          omega

/-! ## What a growth did -/

/-- What a successful `caml_try_realloc_stack` on `domain` did, from `rt` to `rt'`: the current
stack `old` grew into the stack `new` at `newStack`, of `wsize` words, and the pointer rewrites
left the domain and memory `rewritten`. -/
structure Regrowth (env : Env) (rt rt' : Runtime) (domain requiredSpace fuel : Nat)
    (old : StackInfo) (wsize newStack : Nat) (new : StackInfo)
    (rewritten : Domain × (Nat → Nat)) : Prop where
  plain : env.backend = .plain
  current : rt.records (rt.domains domain).currentStack = some old
  sized : doubleStackSize rt.maxStackWsize
    ((toUnsigned (stackUsed env old) + requiredSpace) % wordModulus) fuel
    (stackWsize env (rt.domains domain).currentStack old) = some (.sized wsize)
  fresh : rt.live newStack = false
  distinct : newStack ≠ (rt.domains domain).currentStack
  initialised : ∃ info, new = initStack env info old.handleValue old.handleExn old.handleEffect
    old.id
  room : env.LengthFits wsize → env.HasRoom newStack new wsize
  addressed : old.extentEnd ≤ addressWords
  apart : new.extentEnd ≤ (rt.domains domain).currentStack ∨ old.extentEnd ≤ newStack
  rewrote : ∃ cache, rewritePointers env (relocation env (rt.domains domain).currentStack old new)
    (rt.domains domain).currentStack newStack fuel { rt.domains domain with stackCache := cache }
    (copyWords rt.mem (offsetBy (env.stackHigh new) (-stackUsed env old))
      (offsetBy (env.stackHigh old) (-stackUsed env old))
      (toUnsigned (stackUsed env old) * 8 % wordModulus / 8)) = some rewritten
  record : rt'.records newStack =
    some (movedRecord env (rt.domains domain).currentStack old new (stackUsed env old))
  others : ∀ stack, stack ≠ (rt.domains domain).currentStack → stack ≠ newStack →
    rt'.records stack = rt.records stack
  live : rt'.live = Function.update (Function.update rt.live newStack true)
    (rt.domains domain).currentStack false
  arenas : rt'.freedArenas = rt.freedArenas
  mem : rt'.mem = rewritten.2
  switched : (rt'.domains domain).currentStack = newStack
  handlers : (rt'.domains domain).exnHandler = rewritten.1.exnHandler ∧
    (rt'.domains domain).asyncExnHandler = rewritten.1.asyncExnHandler ∧
    (rt'.domains domain).cStack = rewritten.1.cStack

theorem finishRealloc_of_found {rt : Runtime} {domain oldStack newStack : Nat}
    {rewritten : Domain × (Nat → Nat)} {info : StackInfo} (found : rt.records oldStack = some info) :
    (finishRealloc rt domain oldStack newStack rewritten).live =
      Function.update rt.live oldStack false ∧
    (finishRealloc rt domain oldStack newStack rewritten).freedArenas =
      rt.freedArenas ++ info.localArenas.toList ∧
    (finishRealloc rt domain oldStack newStack rewritten).mem = rewritten.2 ∧
    (∀ other, other ≠ oldStack →
      (finishRealloc rt domain oldStack newStack rewritten).records other = rt.records other) ∧
    ((finishRealloc rt domain oldStack newStack rewritten).domains domain).currentStack = newStack ∧
    (((finishRealloc rt domain oldStack newStack rewritten).domains domain).exnHandler =
        rewritten.1.exnHandler ∧
      ((finishRealloc rt domain oldStack newStack rewritten).domains domain).asyncExnHandler =
        rewritten.1.asyncExnHandler ∧
      ((finishRealloc rt domain oldStack newStack rewritten).domains domain).cStack =
        rewritten.1.cStack) := by
  obtain ⟨live, arenas, mem, others, domains⟩ :=
    @camlFreeStack_of_found { rt.updateDomain domain (fun _ => rewritten.1) with mem := rewritten.2 }
      domain oldStack info found
  have exn := congrArg Domain.exnHandler (domains domain)
  have async := congrArg Domain.asyncExnHandler (domains domain)
  have links := congrArg Domain.cStack (domains domain)
  simp only [Runtime.updateDomain_domains, Function.update_same] at exn async links
  refine ⟨live, arenas, mem, others, by simp [finishRealloc], ?_⟩
  simp only [finishRealloc, Runtime.updateDomain_domains, Function.update_same]
  exact ⟨exn, async, links⟩

namespace Store.Invariant

variable {env : Env} {rt rt' : Runtime} {lists : Nat → Nat → List Nat}

/-- A successful `caml_try_realloc_stack` on a live current stack, in a store that keeps the
invariant, is a regrowth. -/
theorem regrowth (inv : Invariant env rt lists) (system : SystemAllocator env rt.records)
    {fuel domain requiredSpace : Nat} (live : rt.live (rt.domains domain).currentStack = true)
    (grown : camlTryReallocStack env system.allocate fuel rt domain requiredSpace =
      some (rt', true)) :
    ∃ old wsize newStack new rewritten,
      Regrowth env rt rt' domain requiredSpace fuel old wsize newStack new rewritten := by
  obtain ⟨old, wsize, allocated, newStack, new, rewritten, plain, current, sized, allocation,
    stored, rewrote, rfl⟩ := camlTryReallocStack_of_grown grown
  obtain ⟨⟨lists₁, inv₁⟩, returned⟩ := inv.alloc system (stackCacheBucket_sized env wsize) allocation
  obtain ⟨dead, info₁, found₁, room⟩ := returned newStack rfl
  rw [stored] at found₁
  cases found₁
  obtain ⟨info, records, lives, mem, -, -, -, arenasKept, domains⟩ :=
    allocSizeClassStackNoexc_of_some allocation
  have distinct : newStack ≠ (rt.domains domain).currentStack := by
    rintro same
    rw [same, live] at dead
    cases dead
  have oldKept : allocated.records (rt.domains domain).currentStack = some old := by
    rw [records, Function.update_noteq distinct.symm, current]
  have domain₁ := domains domain
  have movedOld : (moveStack env allocated (rt.domains domain).currentStack old newStack new
      (stackUsed env old)).records (rt.domains domain).currentStack = some (detachedRecord old) := by
    simp [moveStack]
  obtain ⟨freedLive, freedArenas, freedMem, freedOthers, switched, handlers⟩ :=
    @finishRealloc_of_found _ domain _ newStack rewritten _ movedOld
  refine ⟨old, wsize, newStack, new, rewritten,
    { plain, current, sized, fresh := dead, distinct, room, switched, handlers
      initialised := ⟨info, by rw [records, Function.update_same] at stored; exact
        (Option.some.inj stored).symm⟩
      addressed := inv.addressed _ _ current
      apart := inv₁.separate _ _ _ _ stored oldKept distinct
      rewrote := ⟨(allocated.domains domain).stackCache, ?_⟩
      record := ?_, others := fun stack notOld notNew => ?_, live := ?_
      arenas := ?_, mem := freedMem }⟩
  · have same : { rt.domains domain with stackCache := (allocated.domains domain).stackCache } =
        allocated.domains domain := by
      rw [← domain₁]
    rw [same, ← mem]
    exact rewrote
  · rw [freedOthers _ distinct]
    simp [moveStack, Function.update_noteq distinct]
  · rw [freedOthers _ notOld]
    simp [moveStack, records, Function.update_noteq notOld, Function.update_noteq notNew]
  · rw [freedLive]
    simp [moveStack, lives]
  · rw [freedArenas]
    simp [moveStack, detachedRecord, arenasKept]

end Store.Invariant

/-! ## Runs that reach a growth -/

/-- The code around the store runs a fiber on `stack` in `domain`: it rewrites the stack's record
as `info`, makes it the current stack with the given handlers and `c_stack`, and writes memory. -/
def runOn (rt : Runtime) (domain stack : Nat) (info : StackInfo)
    (exnHandler asyncExnHandler : Nat) (cStack : List CStackLink) (mem : Nat → Nat) : Runtime :=
  { (rt.setStack stack info).updateDomain domain fun dom =>
      { dom with
        currentStack := stack, exnHandler := exnHandler, asyncExnHandler := asyncExnHandler
        cStack := cStack } with
    mem := mem }

theorem Step.runOn {env : Env} {rt : Runtime} {domain stack : Nat} {info : StackInfo}
    {exnHandler asyncExnHandler : Nat} {cStack : List CStackLink} {mem : Nat → Nat}
    (live : rt.live stack = true)
    (laid : (rt.records stack).map stackLayout = some (stackLayout info)) :
    Step env rt (runOn rt domain stack info exnHandler asyncExnHandler cStack mem) := by
  obtain ⟨info', found, same⟩ := Option.map_eq_some'.mp laid
  have switched : Frame (rt.setStack stack info) ((rt.setStack stack info).updateDomain domain
      fun dom => { dom with
        currentStack := stack, exnHandler := exnHandler, asyncExnHandler := asyncExnHandler
        cStack := cStack }) :=
    Frame.updateDomain rfl
  exact .mutator (((Frame.setStack live found same.symm).trans switched).trans
    (Frame.of_eq rfl rfl rfl))

/-- From the start, under a limit of `maxStackWsize`, domain `0` gets a cache and a stack of
`wosize` words, which the backend places at `4096`. -/
def fiberAllocated (env : Env) (maxStackWsize wosize : Nat) : Runtime × Option Nat :=
  camlAllocStackNoexc env (placeAt 4096) (camlAllocStackCache (initialRuntime maxStackWsize) 0 true)
    0 wosize 0 0 0 0

theorem fiberAllocated_reachable {env : Env} (plain : env.backend = .plain)
    (maxStackWsize wosize : Nat) : Reachable env (fiberAllocated env maxStackWsize wosize).1 :=
  .step (.step (.initial maxStackWsize) (.allocStackCache true rfl))
    (.allocStackNoexc (placeAtAbove env 4096 _ (by decide) (fun _ _ found => by cases found) plain)
      wosize 0 0 0 0 (by simp [camlAllocStackCache, initialRuntime]))

theorem fiberAllocated_records {env : Env} {maxStackWsize wosize : Nat}
    (placed : (fiberAllocated env maxStackWsize wosize).2 = some 4096) :
    ∃ info, (fiberAllocated env maxStackWsize wosize).1.records =
      Function.update (fun _ => none) 4096 (some info) := by
  obtain ⟨info, records, -⟩ := allocSizeClassStackNoexc_of_some
    (show fiberAllocated env maxStackWsize wosize = (_, some 4096) from Prod.ext rfl placed)
  exact ⟨_, records⟩

/-- A backend that places the next stack at `start`, above a fiber run on the stack at `4096`
whose record ends below `start`. -/
def placeAbove (env : Env) (plain : env.backend = .plain) {maxStackWsize wosize : Nat}
    (placed : (fiberAllocated env maxStackWsize wosize).2 = some 4096) (start : Nat)
    (low : 4096 < start) {info : StackInfo} (below : info.extentEnd ≤ start)
    (exnHandler asyncExnHandler : Nat) (cStack : List CStackLink) (mem : Nat → Nat) :
    SystemAllocator env (runOn (fiberAllocated env maxStackWsize wosize).1 0 4096 info exnHandler
      asyncExnHandler cStack mem).records :=
  placeAtAbove env start _ (by unfold stackHandlerWords; omega) (fun stack info' found => by
    obtain ⟨_, records⟩ := fiberAllocated_records placed
    simp only [runOn, Runtime.updateDomain, Runtime.setStack, records,
      Function.update_idem] at found
    by_cases same : stack = 4096
    · subst same
      simp only [Function.update_same, Option.some.injEq] at found
      exact ⟨low, found ▸ below⟩
    · simp [Function.update_noteq same] at found) plain

/-- The 64-bit sample platform of native code built with frame pointers. -/
def framePointerPlatform : Env := { samplePlatform .plain true 64 with withFramePointers := true }

/-- The stack at `4096` while a fiber runs on it: eleven live words below its `Stack_high` of
`4171`, and the local-arena set `7`. -/
def runningRecord : StackInfo := ⟨4160, none, 4172, 0, 0, 0, none, 0, 0, 0, some 7, 0, none, 0⟩

/-- The running fiber's live words: the trap frame at `4162` links to the one at `4166`, and the
frame pointer saved at `4164` to the one at `4168`. -/
def runningMem (address : Nat) : Nat :=
  if address = 4162 then 4166 else if address = 4164 then 4168 else 0

/-- A fiber runs on a stack of `64` words at `4096`, with its trap frames at `4162` and `4166`,
the second the asynchronous one, and one `c_stack` link made on it, its saved frame pointer at
`4164`. -/
def fiberRunning (env : Env) : Runtime :=
  runOn (fiberAllocated env 1024 64).1 0 4096 runningRecord 4162 4166 [⟨4096, 4160, 4166, 4164⟩]
    runningMem

theorem fiberRunning_reachable {env : Env} (plain : env.backend = .plain)
    (laid : ((fiberAllocated env 1024 64).1.records 4096).map stackLayout =
      some (stackLayout runningRecord))
    (live : (fiberAllocated env 1024 64).1.live 4096 = true) : Reachable env (fiberRunning env) :=
  .step (fiberAllocated_reachable plain 1024 64) (Step.runOn live laid)

theorem fiberRunning_current (env : Env) :
    (fiberRunning env).records ((fiberRunning env).domains 0).currentStack = some runningRecord := by
  simp [fiberRunning, runOn, Runtime.updateDomain, Runtime.setStack]

theorem fiberRunning_owns {env : Env} (placed : (fiberAllocated env 1024 64).2 = some 4096) :
    ∀ stack info, (fiberRunning env).live stack = true → (fiberRunning env).records stack = some info →
      info.localArenas = some 7 → stack = 4096 := by
  intro stack info _ found _
  obtain ⟨_, records⟩ := fiberAllocated_records placed
  by_contra other
  simp [fiberRunning, runOn, Runtime.updateDomain, Runtime.setStack, records,
    Function.update_noteq other] at found

/-- A stack of `2^32 + 8` words at `4096`, under a limit of `2^34`, with `2^32 + 5` live words. -/
def hugeRecord : StackInfo :=
  ⟨4110, none, 4294971412, 0, 0, 0, none, -1, 0, 0, none, 0, none, 0⟩

/-- A fiber runs on a stack of `2^32 + 8` words with no trap frame, no `c_stack` link and memory
all zero. -/
def hugeFiber (env : Env) : Runtime :=
  runOn (fiberAllocated env (2 ^ 34) (2 ^ 32 + 8)).1 0 4096 hugeRecord 0 0 [] fun _ => 0

theorem Step.changeMaxStackSize {env : Env} {rt rt' : Runtime} {domain newMaxWsize : Nat}
    (changed : camlChangeMaxStackSize env rt domain newMaxWsize = some rt') : Step env rt rt' := by
  unfold camlChangeMaxStackSize at changed
  split at changed
  · cases changed
  · cases changed
    exact .mutator (Frame.of_eq rfl rfl rfl)

/-- `caml_change_max_stack_size` admits a limit of `2^34` words while the huge fiber runs: its
stack of `2^32 + 8` words is below twice the limit, and its `2^32 + 5` live words make
`stack_used` `5`. -/
theorem admitted_limit_truncates_stack_used :
    ∃ rt, camlChangeMaxStackSize framePointerPlatform (hugeFiber framePointerPlatform) 0 (2 ^ 34) =
        some rt ∧
      Reachable framePointerPlatform rt ∧ rt.maxStackWsize = 2 ^ 34 ∧
      rt.records (rt.domains 0).currentStack = some hugeRecord ∧
      framePointerPlatform.stackBase 4096 ≤ hugeRecord.sp ∧
      framePointerPlatform.stackHigh hugeRecord - framePointerPlatform.stackBase 4096 <
        2 * rt.maxStackWsize ∧
      framePointerPlatform.stackHigh hugeRecord - hugeRecord.sp = 2 ^ 32 + 5 ∧
      stackUsed framePointerPlatform hugeRecord = 5 :=
  have changed : camlChangeMaxStackSize framePointerPlatform (hugeFiber framePointerPlatform) 0
      (2 ^ 34) = some { hugeFiber framePointerPlatform with maxStackWsize := 2 ^ 34 } := by
    have current : (hugeFiber framePointerPlatform).records
        ((hugeFiber framePointerPlatform).domains 0).currentStack = some hugeRecord := by
      simp [hugeFiber, runOn, Runtime.updateDomain, Runtime.setStack]
    unfold camlChangeMaxStackSize
    rw [current]
    dsimp only
    rw [if_neg (by decide)]
  ⟨_, changed, .step (.step (fiberAllocated_reachable rfl _ _) (Step.runOn (by decide) (by decide)))
    (Step.changeMaxStackSize changed), rfl, by decide, by decide, by decide, by decide, by decide⟩

/-! ## What the new stack takes over -/

/-- A successful `caml_try_realloc_stack` makes a stack that was not live the current one, with the
old stack's handlers, parent, id, local arenas and refreshed local pointers.  It frees no local
arena, and an arena set that only the old stack held among the live stacks is afterwards held by
exactly one live stack, the new one. -/
theorem realloc_moves_stack_state {env : Env} {rt rt' : Runtime}
    {fuel domain requiredSpace : Nat} {old : StackInfo} (reachable : Reachable env rt)
    (system : SystemAllocator env rt.records)
    (live : rt.live (rt.domains domain).currentStack = true)
    (current : rt.records (rt.domains domain).currentStack = some old)
    (grown : camlTryReallocStack env system.allocate fuel rt domain requiredSpace =
      some (rt', true)) :
    ∃ new, rt'.records (rt'.domains domain).currentStack = some new ∧
      (rt'.domains domain).currentStack ≠ (rt.domains domain).currentStack ∧
      rt.live (rt'.domains domain).currentStack = false ∧
      rt'.live (rt'.domains domain).currentStack = true ∧
      rt'.live (rt.domains domain).currentStack = false ∧
      new.handleValue = old.handleValue ∧ new.handleExn = old.handleExn ∧
      new.handleEffect = old.handleEffect ∧ new.parent = old.parent ∧ new.id = old.id ∧
      new.localArenas = old.localArenas ∧
      env.refreshLocals (rt.domains domain).currentStack old =
        ⟨new.localSp, new.localTop, new.localLimit⟩ ∧
      rt'.freedArenas = rt.freedArenas ∧
      ∀ arenas, old.localArenas = some arenas →
        (∀ stack info, rt.live stack = true → rt.records stack = some info →
          info.localArenas = some arenas → stack = (rt.domains domain).currentStack) →
        ∀ stack, (rt'.live stack = true ∧ ∃ info, rt'.records stack = some info ∧
          info.localArenas = some arenas) ↔ stack = (rt'.domains domain).currentStack := by
  obtain ⟨lists, inv⟩ := reachable.invariant
  obtain ⟨old', wsize, newStack, new, rewritten, growth⟩ := inv.regrowth system live grown
  obtain rfl : old' = old := Option.some.inj (growth.current.symm.trans current)
  obtain ⟨info, rfl⟩ := growth.initialised
  have newLive : rt'.live newStack = true := by
    simp [growth.live, Function.update_noteq growth.distinct]
  have oldDead : rt'.live (rt.domains domain).currentStack = false := by simp [growth.live]
  rw [growth.switched]
  refine ⟨_, growth.record, growth.distinct, growth.fresh, newLive, oldDead, rfl, rfl, rfl, rfl,
    rfl, rfl, rfl, growth.arenas, fun arenas held owned stack => ⟨?_, ?_⟩⟩
  · rintro ⟨alive, info', found, holds⟩
    by_contra other
    have notOld : stack ≠ (rt.domains domain).currentStack := by
      rintro rfl
      rw [oldDead] at alive
      cases alive
    rw [growth.others stack notOld other] at found
    have wasAlive : rt.live stack = true := by
      simpa [growth.live, Function.update_noteq notOld, Function.update_noteq other] using alive
    exact notOld (owned stack info' wasAlive found holds)
  · rintro rfl
    exact ⟨newLive, _, growth.record, held⟩

/-- Growing the running fiber's stack by a word hands its arena set `7` to the new stack, which
alone holds it, and frees no arena. -/
theorem realloc_moves_running_fiber :
    ∃ rt', camlTryReallocStack (samplePlatform .plain true 64) (placeAt 8192) 4
        (fiberRunning (samplePlatform .plain true 64)) 0 1 = some (rt', true) ∧
      ∃ new, rt'.records (rt'.domains 0).currentStack = some new ∧
        (rt'.domains 0).currentStack ≠ 4096 ∧ new.localArenas = some 7 ∧ rt'.freedArenas = [] ∧
        ∀ stack, (rt'.live stack = true ∧ ∃ info, rt'.records stack = some info ∧
          info.localArenas = some 7) ↔ stack = (rt'.domains 0).currentStack := by
  obtain ⟨rt', grown⟩ : ∃ rt', camlTryReallocStack (samplePlatform .plain true 64) (placeAt 8192) 4
      (fiberRunning (samplePlatform .plain true 64)) 0 1 = some (rt', true) := ⟨_, rfl⟩
  obtain ⟨new, found, moved, -, -, -, -, -, -, -, -, arenas, -, freed, owned⟩ :=
    realloc_moves_stack_state
      (@fiberRunning_reachable (samplePlatform .plain true 64) rfl (by decide) (by decide))
      (placeAbove _ rfl (by decide) 8192 (by decide) (by decide) _ _ _ _) (by decide)
      (fiberRunning_current _) grown
  exact ⟨rt', grown, new, found, moved, arenas, freed, owned 7 rfl (fiberRunning_owns (by decide))⟩

/-! ## Room after a growth -/

theorem toInt_bounds (x : Int) : -2 ^ 31 ≤ toInt x ∧ toInt x < 2 ^ 31 := by
  unfold toInt
  omega

theorem stackUsed_of_small {env : Env} {info : StackInfo} (below : info.sp ≤ env.stackHigh info)
    (small : env.stackHigh info - info.sp < 2 ^ 31) :
    stackUsed env info = ((env.stackHigh info - info.sp : Nat) : Int) := by
  unfold stackUsed toInt
  omega

theorem toUnsigned_words {n : Nat} (small : n < addressWords) :
    toUnsigned n * 8 % wordModulus / 8 = n := by
  have bytes : n * 8 < wordModulus := by
    unfold addressWords at small
    unfold wordModulus
    omega
  rw [toUnsigned, Int.emod_eq_of_lt (by omega) (by omega), Int.toNat_ofNat, Nat.mod_eq_of_lt bytes,
    Nat.mul_div_cancel _ (by decide)]

theorem stackWsize_eq {env : Env} {stack : Nat} {info : StackInfo}
    (below : env.stackBase stack ≤ env.stackHigh info) (high : env.stackHigh info < wordModulus) :
    stackWsize env stack info = env.stackHigh info - env.stackBase stack := by
  unfold stackWsize toUnsigned
  rw [Int.emod_eq_of_lt (by omega) (by omega), Int.toNat_sub]

theorem Env.LengthFits.lt_addressWords {env : Env} {wosize : Nat} (plain : env.backend = .plain)
    (fits : env.LengthFits wosize) : wosize < addressWords := by
  simp only [Env.LengthFits, plain, stackHandlerWords, wordModulus, addressWords] at fits ⊢
  omega

namespace Regrowth

variable {env : Env} {rt rt' : Runtime} {domain requiredSpace fuel wsize newStack : Nat}
  {old new : StackInfo} {rewritten : Domain × (Nat → Nat)}

theorem sized_room
    (growth : Regrowth env rt rt' domain requiredSpace fuel old wsize newStack new rewritten)
    (fits : env.LengthFits (2 * rt.maxStackWsize)) :
    (toUnsigned (stackUsed env old) + requiredSpace) % wordModulus ≤ wsize ∧
      2 * stackWsize env (rt.domains domain).currentStack old ≤ wsize ∧
      env.HasRoom newStack new wsize := by
  have limit := fits.lt_addressWords growth.plain
  obtain ⟨reaches, below, doubled⟩ := doubleStackSize_sized (limit.trans (by decide)) growth.sized
  exact ⟨reaches, doubled, growth.room (fits.mono (by omega))⟩

theorem used_fits
    (growth : Regrowth env rt rt' domain requiredSpace fuel old wsize newStack new rewritten)
    (fits : env.LengthFits (2 * rt.maxStackWsize))
    (spAbove : env.stackBase (rt.domains domain).currentStack ≤ old.sp)
    (spBelow : old.sp ≤ env.stackHigh old) :
    env.stackBase newStack + (env.stackHigh old - old.sp) ≤ env.stackHigh new := by
  obtain ⟨-, doubled, room⟩ := growth.sized_room fits
  have high : env.stackHigh old < wordModulus :=
    calc env.stackHigh old ≤ old.handler := Nat.sub_le _ _
      _ < old.extentEnd := Nat.lt_add_of_pos_right (by decide)
      _ ≤ addressWords := growth.addressed
      _ < wordModulus := by decide
  rw [stackWsize_eq (by omega) high] at doubled
  unfold Env.HasRoom at room
  omega

theorem free_words
    (growth : Regrowth env rt rt' domain requiredSpace fuel old wsize newStack new rewritten)
    (fits : env.LengthFits (2 * rt.maxStackWsize)) (request : requiredSpace < addressWords) :
    ∃ info', rt'.records (rt'.domains domain).currentStack = some info' ∧
      env.stackBase (rt'.domains domain).currentStack + requiredSpace ≤ info'.sp := by
  obtain ⟨reaches, -, room⟩ := growth.sized_room fits
  have used := toInt_bounds ((env.stackHigh old : Int) - old.sp)
  rw [growth.switched]
  refine ⟨_, growth.record, ?_⟩
  unfold Env.HasRoom at room
  unfold toUnsigned at reaches
  simp only [movedRecord, offsetBy, Env.stackHigh, stackUsed] at room reaches used ⊢
  unfold wordModulus addressWords at *
  omega

theorem relocation_apart
    (growth : Regrowth env rt rt' domain requiredSpace fuel old wsize newStack new rewritten)
    (fits : env.LengthFits (2 * rt.maxStackWsize))
    (spAbove : env.stackBase (rt.domains domain).currentStack < old.sp)
    (spBelow : old.sp ≤ env.stackHigh old) :
    (relocation env (rt.domains domain).currentStack old new).Apart old.sp := by
  have room := growth.used_fits fits spAbove.le spBelow
  have base : ∀ stack, env.stackBase stack = stack + env.stackCtxWords := by
    simp [Env.stackBase, growth.plain]
  have highOld : env.stackHigh old ≤ old.handler := Nat.sub_le _ _
  have highNew : env.stackHigh new ≤ new.handler := Nat.sub_le _ _
  have away := growth.apart
  unfold StackInfo.extentEnd at away
  rw [base] at room
  refine ⟨spAbove, spBelow, show env.stackHigh old - old.sp ≤ env.stackHigh new by omega, ?_⟩
  show env.stackHigh new ≤ env.stackBase _ ∨
    env.stackHigh old < env.stackHigh new - (env.stackHigh old - old.sp)
  rw [base]
  unfold stackHandlerWords at away
  omega

end Regrowth

theorem camlMaybeExpandStack_ok {env : Env} {allocate : Nat → Option Nat} {fuel domain : Nat}
    {rt rt' : Runtime} {bucket : Option Nat} {info : StackInfo}
    (current : rt.records (rt.domains domain).currentStack = some info)
    (ran : camlMaybeExpandStack env allocate fuel rt domain bucket = some (rt', .ok ())) :
    ∃ expanded, rt'.records = expanded.records ∧
      (rt'.domains domain).currentStack = (expanded.domains domain).currentStack ∧
      ((stackNeeded env ≤ toUnsigned ((info.sp : Int) - env.stackBase (rt.domains domain).currentStack) ∧
          expanded = rt) ∨
        camlTryReallocStack env allocate fuel rt domain (stackNeeded env) = some (expanded, true)) := by
  simp only [camlMaybeExpandStack, current] at ran
  obtain ⟨⟨expanded, grown⟩, expansion, done⟩ := Option.map_eq_some'.mp ran
  have kept : rt'.records = expanded.records ∧
      (rt'.domains domain).currentStack = (expanded.domains domain).currentStack ∧ grown = true := by
    cases grown
    · simp at done
    · simp only [not_true_eq_false, if_false] at done
      split at done
      · split at done
        · simp at done
        · obtain ⟨rfl, -⟩ := Prod.mk.inj done
          simp
      · obtain ⟨rfl, -⟩ := Prod.mk.inj done
        simp
  obtain ⟨records, switched, rfl⟩ := kept
  refine ⟨expanded, records, switched, ?_⟩
  split at expansion
  · exact .inr expansion
  · obtain ⟨rfl, -⟩ := Prod.mk.inj (Option.some.inj expansion)
    exact .inl ⟨by omega, rfl⟩

/-- In a reachable state whose doubled `caml_max_stack_wsize` has a byte length that fits, with
the current stack's `sp` an address: a `caml_ensure_stack_capacity(req)` with `req ≤ sp` that
returns leaves `req` free words below `sp`; a `caml_maybe_expand_stack` that returns, from an `sp`
at or above `Stack_base`, leaves `stack_needed` free words; and every successful
`caml_try_realloc_stack(r)` with `r` an address count leaves `r` free words below the new
`sp`. -/
theorem stack_capacity_after_growth {env : Env} {rt rt' : Runtime} {fuel domain : Nat}
    {info : StackInfo} (reachable : Reachable env rt) (system : SystemAllocator env rt.records)
    (live : rt.live (rt.domains domain).currentStack = true)
    (current : rt.records (rt.domains domain).currentStack = some info)
    (address : info.sp < addressWords) (fits : env.LengthFits (2 * rt.maxStackWsize)) :
    (∀ req, req ≤ info.sp →
      camlEnsureStackCapacity env system.allocate fuel rt domain req = some (rt', .ok ()) →
      ∃ info', rt'.records (rt'.domains domain).currentStack = some info' ∧
        env.stackBase (rt'.domains domain).currentStack + req ≤ info'.sp) ∧
    (env.stackBase (rt.domains domain).currentStack ≤ info.sp → stackNeeded env < addressWords →
      ∀ bucket, camlMaybeExpandStack env system.allocate fuel rt domain bucket =
        some (rt', .ok ()) →
      ∃ info', rt'.records (rt'.domains domain).currentStack = some info' ∧
        env.stackBase (rt'.domains domain).currentStack + stackNeeded env ≤ info'.sp) ∧
    (∀ r, r < addressWords →
      camlTryReallocStack env system.allocate fuel rt domain r = some (rt', true) →
      ∃ info', rt'.records (rt'.domains domain).currentStack = some info' ∧
        env.stackBase (rt'.domains domain).currentStack + r ≤ info'.sp) := by
  obtain ⟨lists, inv⟩ := reachable.invariant
  have grows : ∀ {rt'' : Runtime} r, r < addressWords →
      camlTryReallocStack env system.allocate fuel rt domain r = some (rt'', true) →
      ∃ info', rt''.records (rt''.domains domain).currentStack = some info' ∧
        env.stackBase (rt''.domains domain).currentStack + r ≤ info'.sp := fun r request grown => by
    obtain ⟨_, _, _, _, _, growth⟩ := inv.regrowth system live grown
    exact growth.free_words fits request
  refine ⟨fun req small ran => ?_, fun above needed bucket ran => ?_, fun r => grows r⟩
  · simp only [camlEnsureStackCapacity, current] at ran
    split at ran
    · obtain ⟨⟨grown, success⟩, realloc, done⟩ := Option.map_eq_some'.mp ran
      cases success
      · simp at done
      · obtain ⟨rfl, -⟩ := Prod.mk.inj done
        exact grows req (by omega) realloc
    · rename_i enough
      obtain ⟨rfl, -⟩ := Prod.mk.inj (Option.some.inj ran)
      refine ⟨info, current, ?_⟩
      unfold addressWords at address enough
      omega
  · obtain ⟨expanded, records, switched, kept | grown⟩ := camlMaybeExpandStack_ok current ran
    · obtain ⟨enough, rfl⟩ := kept
      refine ⟨info, by rw [records, switched, current], ?_⟩
      rw [switched]
      unfold toUnsigned wordModulus at enough
      unfold addressWords at address
      omega
    · obtain ⟨info', found, room⟩ := grows _ needed grown
      exact ⟨info', by rw [records, switched, found], by rw [switched]; exact room⟩

/-- A bytecode `caml_ensure_stack_capacity(100)` on the running fiber, whose stack has `53` free
words, grows it and leaves `100`. -/
theorem running_fiber_capacity_after_growth :
    ∃ rt', camlEnsureStackCapacity (samplePlatform .plain false 64) (placeAt 8192) 4
        (fiberRunning (samplePlatform .plain false 64)) 0 100 = some (rt', .ok ()) ∧
      ∃ info', rt'.records (rt'.domains 0).currentStack = some info' ∧
        (samplePlatform .plain false 64).stackBase (rt'.domains 0).currentStack + 100 ≤ info'.sp := by
  obtain ⟨rt', ran⟩ : ∃ rt', camlEnsureStackCapacity (samplePlatform .plain false 64) (placeAt 8192)
      4 (fiberRunning (samplePlatform .plain false 64)) 0 100 = some (rt', .ok ()) := ⟨_, rfl⟩
  have fits : (samplePlatform .plain false 64).LengthFits (2 * 1024) := by
    simp [Env.LengthFits, samplePlatform, stackHandlerWords, wordModulus]
  exact ⟨rt', ran, (stack_capacity_after_growth
    (@fiberRunning_reachable (samplePlatform .plain false 64) rfl (by decide) (by decide))
    (placeAbove _ rfl (by decide) 8192 (by decide) (by decide) _ _ _ _) (by decide)
    (fiberRunning_current _) (by decide) fits).1 100 (by decide) ran⟩

/-- A request of `2^61` words wraps `sp - req` in the address space: on the running fiber,
`caml_ensure_stack_capacity` returns without growing, with `sp` far less than `2^61` words above
`Stack_base`. -/
theorem huge_request_skips_growth :
    Reachable (samplePlatform .plain false 64) (fiberRunning (samplePlatform .plain false 64)) ∧
      camlEnsureStackCapacity (samplePlatform .plain false 64) (placeAt 8192) 4
        (fiberRunning (samplePlatform .plain false 64)) 0 (2 ^ 61) =
        some (fiberRunning (samplePlatform .plain false 64), .ok ()) ∧
      ¬(samplePlatform .plain false 64).stackBase 4096 + 2 ^ 61 ≤ runningRecord.sp :=
  ⟨fiberRunning_reachable rfl (by decide) (by decide), rfl, by decide⟩

/-! ## The relocation -/

theorem Relocation.Apart.copied {env : Env} {oldStack : Nat} {old new : StackInfo}
    (apart : (relocation env oldStack old new).Apart old.sp)
    (small : env.stackHigh old - old.sp < 2 ^ 31) (mem : Nat → Nat) :
    Relocation.Relocated (relocation env oldStack old new) old.sp mem []
      (copyWords mem (offsetBy (env.stackHigh new) (-stackUsed env old))
        (offsetBy (env.stackHigh old) (-stackUsed env old))
        (toUnsigned (stackUsed env old) * 8 % wordModulus / 8)) := by
  have spBelow : old.sp ≤ env.stackHigh old := apart.le_high
  have room : env.stackHigh old - old.sp ≤ env.stackHigh new := apart.room
  have used := stackUsed_of_small spBelow small
  have count : toUnsigned (stackUsed env old) * 8 % wordModulus / 8 =
      env.stackHigh old - old.sp := by
    rw [used, toUnsigned_words (small.trans (by decide))]
  have src : offsetBy (env.stackHigh old) (-stackUsed env old) = old.sp := by
    rw [used, offsetBy_neg, Nat.sub_sub_self spBelow]
  have dst : offsetBy (env.stackHigh new) (-stackUsed env old) =
      (relocation env oldStack old new).move old.sp := by
    rw [apart.move_eq (Nat.le_refl _), used, offsetBy_neg]
    show _ = old.sp + env.stackHigh new - env.stackHigh old
    omega
  rw [count, dst, src]
  exact apart.relocated_copy mem

/-- With `2^32 + 5` live words, `(int)` makes `stack_used` `5`: growing the huge fiber's stack, in a
state with no trap frame and no `c_stack` link, copies five words and sets `sp` five words below
the new `Stack_high`. -/
theorem truncated_stack_used_misplaces_sp :
    Reachable framePointerPlatform (hugeFiber framePointerPlatform) ∧
      (hugeFiber framePointerPlatform).live 4096 = true ∧
      framePointerPlatform.LengthFits (2 * 2 ^ 34) ∧
      framePointerPlatform.stackBase 4096 < hugeRecord.sp ∧
      hugeRecord.sp ≤ framePointerPlatform.stackHigh hugeRecord ∧
      framePointerPlatform.stackHigh hugeRecord - hugeRecord.sp = 2 ^ 32 + 5 ∧
      Climb (fun link => framePointerPlatform.stackBase 4096 < link ∧
          link ≤ framePointerPlatform.stackHigh hugeRecord) (hugeFiber framePointerPlatform).mem
        (framePointerPlatform.stackHigh hugeRecord) hugeRecord.sp
        ((hugeFiber framePointerPlatform).domains 0).exnHandler [] ∧
      ((hugeFiber framePointerPlatform).domains 0).asyncExnHandler = 0 ∧
      ((hugeFiber framePointerPlatform).domains 0).cStack = [] ∧
      ∃ rt', camlTryReallocStack framePointerPlatform (placeAt (2 ^ 33)) 4
          (hugeFiber framePointerPlatform) 0 1 = some (rt', true) ∧
        ∃ new, rt'.records (rt'.domains 0).currentStack = some new ∧
          new.sp + (2 ^ 32 + 5) ≠ framePointerPlatform.stackHigh new :=
  ⟨.step (fiberAllocated_reachable rfl _ _) (Step.runOn (by decide) (by decide)), by decide,
    by simp [Env.LengthFits, framePointerPlatform, samplePlatform, stackHandlerWords, wordModulus],
    by decide, by decide, by decide, .leave (by decide), rfl, rfl, _, rfl, _, rfl, by decide⟩

end FiberRuntime
