import FiberRuntime.Cache

/-!
# Growing the current stack

`caml_try_realloc_stack` doubles the current stack's size until the live words and the request
fit, refusing once the size has reached `caml_max_stack_wsize`; it then takes a stack of that
size from the cache or the backend, copies the live words to its top, moves the handler record,
the parent link and the local arenas over, rewrites every pointer into the old stack, and frees
the old one.  `caml_ensure_stack_capacity` (bytecode) and `caml_maybe_expand_stack` (native code)
call it when too few words are free.
-/

namespace FiberRuntime

/-- How the doubling loop of `caml_try_realloc_stack` ends. -/
inductive Growth where
  /-- `return 0`: the size reached `caml_max_stack_wsize` first. -/
  | refused
  /-- The size to allocate. -/
  | sized (wsize : Nat)
  deriving DecidableEq, Repr

/-- `do { if (wsize >= max_stack_wsize) return 0; wsize *= 2; } while (wsize < needed);` in
`asize_t`, running at most `fuel` iterations; `none` when it needs more. -/
def doubleStackSize (maxStackWsize needed : Nat) : Nat → Nat → Option Growth
  | 0, _ => none
  | fuel + 1, wsize =>
      if maxStackWsize ≤ wsize then some .refused
      else if wsize * 2 % wordModulus < needed then
        doubleStackSize maxStackWsize needed fuel (wsize * 2 % wordModulus)
      else some (.sized (wsize * 2 % wordModulus))

theorem doubleStackSize_eq {maxStackWsize needed wsize k fuel : Nat} (positive : 0 < wsize)
    (representable : 2 * maxStackWsize < wordModulus) (one_le : 1 ≤ k)
    (reaches : needed ≤ wsize * 2 ^ k) (least : ∀ j, 1 ≤ j → j < k → wsize * 2 ^ j < needed)
    (enough : k ≤ fuel) :
    doubleStackSize maxStackWsize needed fuel wsize =
      if maxStackWsize ≤ wsize * 2 ^ (k - 1) then some .refused
      else some (.sized (wsize * 2 ^ k)) := by
  induction k generalizing wsize fuel with
  | zero => omega
  | succ k ih =>
      obtain ⟨fuel, rfl⟩ : ∃ rest, fuel = rest + 1 := ⟨fuel - 1, by omega⟩
      have grows : wsize ≤ wsize * 2 ^ k := Nat.le_mul_of_pos_right wsize (Nat.two_pow_pos k)
      simp only [doubleStackSize, Nat.add_sub_cancel]
      by_cases limit : maxStackWsize ≤ wsize
      · simp [limit, Nat.le_trans limit grows]
      · have doubled : wsize * 2 % wordModulus = wsize * 2 := Nat.mod_eq_of_lt (by omega)
        simp only [limit, if_false, doubled]
        rcases Nat.eq_zero_or_pos k with last | more
        · subst last
          simp [limit, Nat.not_lt.mpr (by simpa using reaches)]
        · have short : wsize * 2 < needed := by simpa using least 1 (Nat.le_refl 1) (by omega)
          have shifted : ∀ j, wsize * 2 * 2 ^ j = wsize * 2 ^ (j + 1) := fun j => by
            rw [Nat.pow_succ, Nat.mul_assoc, Nat.mul_comm 2]
          rw [if_pos short, ih (by omega) more (by rw [shifted]; exact reaches)
            (fun j low high => by rw [shifted]; exact least (j + 1) (by omega) (by omega))
            (by omega), shifted, shifted, Nat.sub_add_cancel more]

/-- The doubling loop of `caml_try_realloc_stack` for a stack of `c > 0` words holding `u` live
ones and a request of `r` more, where `u + r` fits in a word. -/
theorem doubling_loop_policy {c u r m k fuel : Nat} (positive : 0 < c)
    (representable : 2 * m < wordModulus) (no_wrap : u + r < wordModulus) (one_le : 1 ≤ k)
    (reaches : u + r ≤ c * 2 ^ k) (least : ∀ j, 1 ≤ j → j < k → c * 2 ^ j < u + r)
    (enough : k ≤ fuel) :
    (doubleStackSize m ((u + r) % wordModulus) fuel c = some .refused ↔ m ≤ c * 2 ^ (k - 1)) ∧
    (c * 2 ^ (k - 1) < m →
      doubleStackSize m ((u + r) % wordModulus) fuel c = some (.sized (c * 2 ^ k)) ∧
        u + r ≤ c * 2 ^ k ∧ c * 2 ^ k < 2 * m ∧ c * 2 ^ k < wordModulus) := by
  rw [Nat.mod_eq_of_lt no_wrap,
    doubleStackSize_eq positive representable one_le reaches least enough]
  have doubled : c * 2 ^ k = c * 2 ^ (k - 1) * 2 := by
    rw [Nat.mul_assoc, ← Nat.pow_succ, Nat.succ_eq_add_one, Nat.sub_add_cancel one_le]
  refine ⟨by split <;> simp_all, fun below => ⟨by simp [Nat.not_le.mpr below], reaches, ?_, ?_⟩⟩
  all_goals omega

/-- A 64-word stack with 30 live words and a request of 100 grows fourfold, to 256 words. -/
theorem doubling_loop_grows_fourfold :
    (doubleStackSize 1024 ((30 + 100) % wordModulus) 2 64 = some .refused ↔
        1024 ≤ 64 * 2 ^ (2 - 1)) ∧
      (64 * 2 ^ (2 - 1) < 1024 →
        doubleStackSize 1024 ((30 + 100) % wordModulus) 2 64 = some (.sized (64 * 2 ^ 2)) ∧
          30 + 100 ≤ 64 * 2 ^ 2 ∧ 64 * 2 ^ 2 < 2 * 1024 ∧ 64 * 2 ^ 2 < wordModulus) :=
  doubling_loop_policy (by decide) (by decide) (by decide) (by decide) (by decide)
    (fun j low high => by obtain rfl : j = 1 := (by omega); decide) (by decide)

/-- A request so large that `stack_used + required_space` wraps round to `0`: the loop asks for
a stack of two words, far below `u + r`, where the doubling policy would refuse. -/
theorem doubling_loop_wraps_huge_request :
    doubleStackSize 4 ((1 + (wordModulus - 1)) % wordModulus) 1 1 = some (.sized 2) ∧
      2 < 1 + (wordModulus - 1) ∧ 4 ≤ 1 * 2 ^ (64 - 1) := by
  decide

/-! ## Relocating the live words -/

/-- `(int)` of a pointer difference: its low 32 bits, read in two's complement. -/
def toInt (x : Int) : Int := (x + 2 ^ 31) % 2 ^ 32 - 2 ^ 31

/-- An `int` or a `ptrdiff_t` converted to an unsigned word. -/
def toUnsigned (x : Int) : Nat := (x % (wordModulus : Int)).toNat

/-- A word address moved by `delta` words. -/
def offsetBy (address : Nat) (delta : Int) : Nat := (address + delta).toNat

theorem offsetBy_neg (address count : Nat) :
    offsetBy address (-(count : Int)) = address - count := by
  unfold offsetBy
  omega

/-- `memcpy` of `count` words from `src` to `dst`. -/
def copyWords (mem : Nat → Nat) (dst src count : Nat) : Nat → Nat := fun address =>
  if dst ≤ address ∧ address < dst + count then mem (address - dst + src) else mem address

/-- The bounds of the old and new stacks that the rewriting loops read. -/
structure Relocation where
  /-- `Stack_base(old_stack)`. -/
  oldBase : Nat
  /-- `Stack_high(old_stack)`. -/
  oldHigh : Nat
  /-- `Stack_high(new_stack)`. -/
  newHigh : Nat
  deriving DecidableEq, Repr

namespace Relocation

/-- `delta = Stack_high(new_stack) - Stack_high(old_stack)`, in words. -/
def delta (reloc : Relocation) : Int := (reloc.newHigh : Int) - reloc.oldHigh

/-- An address of the old stack moved to the new one. -/
def move (reloc : Relocation) (address : Nat) : Nat := offsetBy address reloc.delta

end Relocation

/-- Where `exn_ptr` points in `caml_rewrite_exception_stack`: at `Caml_state->exn_handler`, or at
the first word of a trap frame. -/
inductive ExnSlot where
  /-- `(value**)&Caml_state->exn_handler`. -/
  | state
  /-- The next-handler word of the trap frame at this address. -/
  | frame (address : Nat)
  deriving DecidableEq, Repr

/-- The word `exn_ptr` points at. -/
def ExnSlot.read (dom : Domain) (mem : Nat → Nat) : ExnSlot → Nat
  | .state => dom.exnHandler
  | .frame address => mem address

/-- `caml_rewrite_exception_stack` from `exn_ptr`, with `fuel` iterations: while `*exn_ptr` lies
in `(Stack_base(old), Stack_high(old)]`, move it to the new stack, moving
`Caml_state->async_exn_handler` along when it was equal, and follow it. -/
def rewriteExceptionStack (reloc : Relocation) :
    Nat → ExnSlot → Domain → (Nat → Nat) → Option (Domain × (Nat → Nat))
  | 0, _, _, _ => none
  | fuel + 1, slot, dom, mem =>
      let link := slot.read dom mem
      if reloc.oldBase < link ∧ link ≤ reloc.oldHigh then
        let moved := ((reloc.newHigh : Int) - ((reloc.oldHigh : Int) - link)).toNat
        let dom := if link = dom.asyncExnHandler then { dom with asyncExnHandler := moved } else dom
        match slot with
        | .state => rewriteExceptionStack reloc fuel (.frame moved) { dom with exnHandler := moved } mem
        | .frame address =>
            rewriteExceptionStack reloc fuel (.frame moved) dom (Function.update mem address moved)
      else some (dom, mem)

theorem rewriteExceptionStack_domain {reloc : Relocation} :
    ∀ {fuel : Nat} {slot : ExnSlot} {dom dom' : Domain} {mem mem' : Nat → Nat},
      rewriteExceptionStack reloc fuel slot dom mem = some (dom', mem') →
        dom'.currentStack = dom.currentStack ∧ dom'.cStack = dom.cStack ∧
          dom'.stackCache = dom.stackCache ∧ dom'.gcRegsBuckets = dom.gcRegsBuckets
  | 0, _, _, _, _, _, rewritten => by cases rewritten
  | fuel + 1, slot, dom, dom', mem, mem', rewritten => by
      unfold rewriteExceptionStack at rewritten
      dsimp only at rewritten
      split at rewritten
      · split at rewritten <;>
          obtain ⟨current, links, cache, buckets⟩ := rewriteExceptionStack_domain rewritten <;>
          refine ⟨current.trans ?_, links.trans ?_, cache.trans ?_, buckets.trans ?_⟩ <;>
          split <;> rfl
      · cases rewritten
        exact ⟨rfl, rfl, rfl, rfl⟩

/-- The frame-pointer loop of `caml_try_realloc_stack` from the frame at `fp`, with `fuel`
iterations: while `fp->prev` lies in `[Stack_base(old), Stack_high(old))`, move it and follow
it. -/
def rewriteFramePointers (reloc : Relocation) : Nat → Nat → (Nat → Nat) → Option (Nat → Nat)
  | 0, _, _ => none
  | fuel + 1, fp, mem =>
      let prev := mem fp
      if reloc.oldBase ≤ prev ∧ prev < reloc.oldHigh then
        rewriteFramePointers reloc fuel (reloc.move prev) (Function.update mem fp (reloc.move prev))
      else some mem

/-- The body of the `c_stack` loop of `caml_try_realloc_stack` on one link: a link made on the
old stack has its saved frame pointers (the first, just below the link, unrolled from the
loop), its `stack` and its `sp` moved; any link has its `async_exn_handler` moved when it lies in
`[Stack_base(old), Stack_high(old))`. -/
def rewriteCStackLink (env : Env) (reloc : Relocation) (oldStack newStack fuel : Nat)
    (link : CStackLink) (mem : Nat → Nat) : Option (CStackLink × (Nat → Nat)) :=
  let framed : Option (CStackLink × (Nat → Nat)) :=
    if link.stack = oldStack then
      let prevMoved :=
        if env.withFramePointers ∧ reloc.oldBase ≤ link.framePrev ∧ link.framePrev < reloc.oldHigh
        then (rewriteFramePointers reloc fuel (reloc.move link.framePrev) mem).map
          fun mem => ({ link with framePrev := reloc.move link.framePrev }, mem)
        else some (link, mem)
      prevMoved.map fun done =>
        ({ done.1 with stack := newStack, sp := reloc.move done.1.sp }, done.2)
    else some (link, mem)
  framed.map fun done =>
    (if reloc.oldBase ≤ done.1.asyncExnHandler ∧ done.1.asyncExnHandler < reloc.oldHigh
      then { done.1 with asyncExnHandler := reloc.move done.1.asyncExnHandler } else done.1,
      done.2)

/-- The `c_stack` loop of `caml_try_realloc_stack`, most recent link first. -/
def rewriteCStack (env : Env) (reloc : Relocation) (oldStack newStack fuel : Nat) :
    List CStackLink → (Nat → Nat) → Option (List CStackLink × (Nat → Nat))
  | [], mem => some ([], mem)
  | link :: links, mem =>
      (rewriteCStackLink env reloc oldStack newStack fuel link mem).bind fun done =>
        (rewriteCStack env reloc oldStack newStack fuel links done.2).map
          fun rest => (done.1 :: rest.1, rest.2)

/-- Every pointer rewrite of `caml_try_realloc_stack`: the exception handler chain (native code),
then the `c_stack` links. -/
def rewritePointers (env : Env) (reloc : Relocation) (oldStack newStack fuel : Nat)
    (dom : Domain) (mem : Nat → Nat) : Option (Domain × (Nat → Nat)) :=
  (if env.nativeCode then rewriteExceptionStack reloc fuel .state dom mem else some (dom, mem)).bind
    fun done => (rewriteCStack env reloc oldStack newStack fuel done.1.cStack done.2).map
      fun rest => ({ done.1 with cStack := rest.1 }, rest.2)

theorem rewritePointers_domain {env : Env} {reloc : Relocation} {oldStack newStack fuel : Nat}
    {dom : Domain} {mem : Nat → Nat} {rewritten : Domain × (Nat → Nat)}
    (rewrote : rewritePointers env reloc oldStack newStack fuel dom mem = some rewritten) :
    rewritten.1.currentStack = dom.currentStack ∧ rewritten.1.stackCache = dom.stackCache ∧
      rewritten.1.gcRegsBuckets = dom.gcRegsBuckets := by
  unfold rewritePointers at rewrote
  obtain ⟨done, exn, links⟩ := Option.bind_eq_some.mp rewrote
  obtain ⟨rest, -, rfl⟩ := Option.map_eq_some'.mp links
  split at exn
  · obtain ⟨current, -, cache, buckets⟩ := rewriteExceptionStack_domain exn
    exact ⟨current, cache, buckets⟩
  · cases exn
    exact ⟨rfl, rfl, rfl⟩

/-- The new stack's record after the moves of `caml_try_realloc_stack`: `sp` as many words below
`Stack_high` as were used, the old parent, and the local arenas `caml_refresh_locals` reports. -/
def movedRecord (env : Env) (oldStack : Nat) (old new : StackInfo) (stackUsed : Int) : StackInfo :=
  let locals := env.refreshLocals oldStack old
  { new with
    sp := offsetBy (env.stackHigh new) (-stackUsed), parent := old.parent
    localArenas := old.localArenas, localSp := locals.localSp, localTop := locals.localTop
    localLimit := locals.localLimit }

@[simp]
theorem movedRecord_sp {env : Env} {oldStack : Nat} {old new : StackInfo} {stackUsed : Int} :
    (movedRecord env oldStack old new stackUsed).sp = offsetBy (env.stackHigh new) (-stackUsed) :=
  rfl

@[simp]
theorem stackHigh_movedRecord {env : Env} {oldStack : Nat} {old new : StackInfo}
    {stackUsed : Int} : env.stackHigh (movedRecord env oldStack old new stackUsed) = env.stackHigh new :=
  rfl

/-- The old stack's record with its local arenas detached, so that freeing it keeps them. -/
def detachedRecord (old : StackInfo) : StackInfo :=
  { old with localArenas := none, localSp := 0, localTop := none, localLimit := 0 }

/-- The copy and the field moves of `caml_try_realloc_stack` once `new_stack` is allocated: the
`stack_used` live words copied to the new top, then the new and the old record rewritten. -/
def moveStack (env : Env) (rt : Runtime) (oldStack : Nat) (old : StackInfo) (newStack : Nat)
    (new : StackInfo) (stackUsed : Int) : Runtime :=
  { (rt.setStack newStack (movedRecord env oldStack old new stackUsed)).setStack oldStack
      (detachedRecord old) with
    mem := copyWords rt.mem (offsetBy (env.stackHigh new) (-stackUsed))
      (offsetBy (env.stackHigh old) (-stackUsed)) (toUnsigned stackUsed * 8 % wordModulus / 8) }

/-- `stack_used`: the live words of a stack, as the `int` the C stores them in. -/
def stackUsed (env : Env) (info : StackInfo) : Int :=
  toInt ((env.stackHigh info : Int) - info.sp)

/-- `caml_change_max_stack_size(new_max_wsize)` on `domain`: the new limit, raised to the live
words of the current stack plus `Stack_threshold`, summed as an `asize_t`. -/
def camlChangeMaxStackSize (env : Env) (rt : Runtime) (domain newMaxWsize : Nat) : Option Runtime :=
  match rt.records (rt.domains domain).currentStack with
  | none => none
  | some info =>
      let wsize := toUnsigned ((env.stackHigh info : Int) - info.sp + env.stackThreshold / 8)
      some { rt with maxStackWsize := if newMaxWsize < wsize then wsize else newMaxWsize }

/-- The first `wsize` of `caml_try_realloc_stack`: `Stack_high - Stack_base` as an `asize_t`. -/
def stackWsize (env : Env) (stack : Nat) (info : StackInfo) : Nat :=
  toUnsigned ((env.stackHigh info : Int) - env.stackBase stack)

/-- The bounds of the old and the new stack that the rewriting loops read. -/
def relocation (env : Env) (oldStack : Nat) (old new : StackInfo) : Relocation :=
  ⟨env.stackBase oldStack, env.stackHigh old, env.stackHigh new⟩

/-- The end of `caml_try_realloc_stack`: install the rewritten domain and memory, free the old
stack and make the new one current. -/
def finishRealloc (rt : Runtime) (domain oldStack newStack : Nat)
    (rewritten : Domain × (Nat → Nat)) : Runtime :=
  (camlFreeStack { rt.updateDomain domain (fun _ => rewritten.1) with mem := rewritten.2 } domain
    oldStack).updateDomain domain fun dom => { dom with currentStack := newStack }

/-- `caml_try_realloc_stack(required_space)` on `domain`, running each loop at most `fuel`
times: the state after it and whether it returned `1`. -/
def camlTryReallocStack (env : Env) (allocate : Nat → Option Nat) (fuel : Nat) (rt : Runtime)
    (domain requiredSpace : Nat) : Option (Runtime × Bool) :=
  let oldStack := (rt.domains domain).currentStack
  match env.backend, rt.records oldStack with
  | .plain, some old =>
      match doubleStackSize rt.maxStackWsize
          ((toUnsigned (stackUsed env old) + requiredSpace) % wordModulus) fuel
          (stackWsize env oldStack old) with
      | none => none
      | some .refused => some (rt, false)
      | some (.sized wsize) =>
          match camlAllocStackNoexc env allocate rt domain wsize old.handleValue old.handleExn
              old.handleEffect old.id with
          | (rt, none) => some (rt, false)
          | (rt, some newStack) =>
              match rt.records newStack with
              | none => none
              | some new =>
                  let rt := moveStack env rt oldStack old newStack new (stackUsed env old)
                  (rewritePointers env (relocation env oldStack old new) oldStack newStack fuel
                    (rt.domains domain) rt.mem).map
                    fun rewritten => (finishRealloc rt domain oldStack newStack rewritten, true)
  | .plain, none => none
  | _, _ => some (rt, false)

/-- `caml_ensure_stack_capacity(required_space)` (bytecode) on `domain`, where `req` is
`Long_val(required_space)` as an `asize_t`; `sp - req` is `value*` arithmetic, modulo the address
space. -/
def camlEnsureStackCapacity (env : Env) (allocate : Nat → Option Nat) (fuel : Nat) (rt : Runtime)
    (domain req : Nat) : Option (Runtime × Except Failure Unit) :=
  let stack := (rt.domains domain).currentStack
  match rt.records stack with
  | none => none
  | some info =>
      if ((info.sp : Int) - req) % (addressWords : Int) < env.stackBase stack then
        (camlTryReallocStack env allocate fuel rt domain req).map fun done =>
          (done.1, if done.2 then .ok () else .error .stackOverflow)
      else some (rt, .ok ())

/-- `stack_needed` of `caml_maybe_expand_stack`: `Stack_threshold / sizeof(value)`, the eight
words `caml_start_program` pushes, and the padding word. -/
def stackNeeded (env : Env) : Nat := env.stackThreshold / 8 + 8 + env.stackPaddingWord

/-- `caml_maybe_expand_stack` (native code) on `domain`; `bucket` is what `caml_stat_alloc` answers
for a `gc_regs` bucket, if one is needed. -/
def camlMaybeExpandStack (env : Env) (allocate : Nat → Option Nat) (fuel : Nat) (rt : Runtime)
    (domain : Nat) (bucket : Option Nat) : Option (Runtime × Except Failure Unit) :=
  let stack := (rt.domains domain).currentStack
  match rt.records stack with
  | none => none
  | some info =>
      let expanded :=
        if toUnsigned ((info.sp : Int) - env.stackBase stack) < stackNeeded env then
          camlTryReallocStack env allocate fuel rt domain (stackNeeded env)
        else some (rt, true)
      expanded.map fun done =>
        if ¬done.2 then (done.1, .error .stackOverflow)
        else if (done.1.domains domain).gcRegsBuckets = none then
          match bucket with
          | none => (done.1, .error .outOfMemory)
          | some bucket =>
              ({ done.1.updateDomain domain fun dom => { dom with gcRegsBuckets := some bucket } with
                  mem := Function.update done.1.mem bucket 0 }, .ok ())
        else (done.1, .ok ())

theorem camlTryReallocStack_of_refused {env : Env} {allocate : Nat → Option Nat}
    {fuel domain requiredSpace : Nat} {rt rt' : Runtime}
    (refused : camlTryReallocStack env allocate fuel rt domain requiredSpace = some (rt', false)) :
    rt' = rt := by
  unfold camlTryReallocStack at refused
  dsimp only at refused
  split at refused
  · split at refused
    · cases refused
    · cases refused; rfl
    · split at refused
      · cases refused
        exact allocSizeClassStackNoexc_of_null ‹_›
      · split at refused
        · cases refused
        · obtain ⟨_, _, done⟩ := Option.map_eq_some'.mp refused
          cases done
  · cases refused
  · cases refused; rfl

/-- Growth fails without a trace: when `caml_try_realloc_stack` returns `0` (a guard-page or
mapped backend, the limit reached, or the allocation failing) the state is as before the call,
and so it is when `caml_ensure_stack_capacity` or `caml_maybe_expand_stack` raises
`Stack_overflow`. -/
theorem stack_overflow_changes_nothing {env : Env} {allocate : Nat → Option Nat}
    {fuel domain : Nat} {rt rt' : Runtime} :
    (∀ requiredSpace, camlTryReallocStack env allocate fuel rt domain requiredSpace =
      some (rt', false) → rt' = rt) ∧
    (∀ req, camlEnsureStackCapacity env allocate fuel rt domain req =
      some (rt', .error .stackOverflow) → rt' = rt) ∧
    (∀ bucket, camlMaybeExpandStack env allocate fuel rt domain bucket =
      some (rt', .error .stackOverflow) → rt' = rt) := by
  refine ⟨fun _ => camlTryReallocStack_of_refused, fun req raised => ?_, fun bucket raised => ?_⟩
  · unfold camlEnsureStackCapacity at raised
    dsimp only at raised
    split at raised
    · cases raised
    · split at raised
      · obtain ⟨⟨rt'', grown⟩, realloc, done⟩ := Option.map_eq_some'.mp raised
        cases grown <;> simp at done
        exact done ▸ camlTryReallocStack_of_refused realloc
      · simp at raised
  · unfold camlMaybeExpandStack at raised
    dsimp only at raised
    split at raised
    · cases raised
    · obtain ⟨⟨rt'', grown⟩, expanded, done⟩ := Option.map_eq_some'.mp raised
      cases grown
      · simp at done
        split at expanded
        · exact done ▸ camlTryReallocStack_of_refused expanded
        · cases expanded
      · simp only [not_true_eq_false, if_false] at done
        split at done
        · split at done <;> simp at done
        · simp at done

/-- A full stack of 64 words at the limit: `caml_try_realloc_stack(1)` returns `0` and
`caml_ensure_stack_capacity(1)` raises `Stack_overflow`, each leaving the state as it was. -/
theorem full_stack_at_limit_overflows :
    ∃ refused raised,
      camlTryReallocStack (samplePlatform .plain false 64) (fun _ => none) 1
          (Runtime.single 4096 (StackInfo.bare 4172 4107) 64) 0 1 = some (refused, false) ∧
      camlEnsureStackCapacity (samplePlatform .plain false 64) (fun _ => none) 1
          (Runtime.single 4096 (StackInfo.bare 4172 4107) 64) 0 1 =
        some (raised, .error .stackOverflow) ∧
      refused = Runtime.single 4096 (StackInfo.bare 4172 4107) 64 ∧
      raised = Runtime.single 4096 (StackInfo.bare 4172 4107) 64 := by
  obtain ⟨refused, failed⟩ : ∃ refused, camlTryReallocStack (samplePlatform .plain false 64)
      (fun _ => none) 1 (Runtime.single 4096 (StackInfo.bare 4172 4107) 64) 0 1 =
        some (refused, false) := ⟨_, rfl⟩
  obtain ⟨raised, overflowed⟩ : ∃ raised, camlEnsureStackCapacity (samplePlatform .plain false 64)
      (fun _ => none) 1 (Runtime.single 4096 (StackInfo.bare 4172 4107) 64) 0 1 =
        some (raised, .error .stackOverflow) := ⟨_, rfl⟩
  exact ⟨refused, raised, failed, overflowed,
    (@stack_overflow_changes_nothing (samplePlatform .plain false 64) (fun _ => none) 1 0 _
      refused).1 1 failed,
    (@stack_overflow_changes_nothing (samplePlatform .plain false 64) (fun _ => none) 1 0 _
      raised).2.1 1 overflowed⟩

theorem camlTryReallocStack_of_grown {env : Env} {allocate : Nat → Option Nat}
    {fuel domain requiredSpace : Nat} {rt rt' : Runtime}
    (grown : camlTryReallocStack env allocate fuel rt domain requiredSpace = some (rt', true)) :
    ∃ old wsize allocated newStack new rewritten,
      env.backend = .plain ∧ rt.records (rt.domains domain).currentStack = some old ∧
      doubleStackSize rt.maxStackWsize
        ((toUnsigned (stackUsed env old) + requiredSpace) % wordModulus) fuel
        (stackWsize env (rt.domains domain).currentStack old) = some (.sized wsize) ∧
      camlAllocStackNoexc env allocate rt domain wsize old.handleValue old.handleExn
        old.handleEffect old.id = (allocated, some newStack) ∧
      allocated.records newStack = some new ∧
      rewritePointers env (relocation env (rt.domains domain).currentStack old new)
        (rt.domains domain).currentStack newStack fuel
        ((moveStack env allocated (rt.domains domain).currentStack old newStack new
          (stackUsed env old)).domains domain)
        (moveStack env allocated (rt.domains domain).currentStack old newStack new
          (stackUsed env old)).mem = some rewritten ∧
      rt' = finishRealloc (moveStack env allocated (rt.domains domain).currentStack old newStack
        new (stackUsed env old)) domain (rt.domains domain).currentStack newStack rewritten := by
  unfold camlTryReallocStack at grown
  dsimp only at grown
  split at grown
  · rename_i old backend current
    split at grown
    · cases grown
    · cases grown
    · rename_i wsize sized
      split at grown
      · cases grown
      · rename_i allocated newStack allocation
        split at grown
        · cases grown
        · rename_i new stored
          obtain ⟨rewritten, rewrote, finished⟩ := Option.map_eq_some'.mp grown
          cases finished
          exact ⟨old, wsize, allocated, newStack, new, rewritten, backend, current, sized,
            allocation, stored, rewrote, rfl⟩
  · cases grown
  · cases grown

end FiberRuntime
