import FiberRuntime.Stack

/-!
# The stack cache

`Caml_state->stack_cache` holds, for each domain, one free list of stacks per size class
`caml_fiber_wsz * 2^b` (`b < NUM_STACK_SIZE_CLASSES`), linked through `exception_ptr`.  This
file models the state those lists live in and the functions that fill and drain them:
`stack_cache_bucket`, `alloc_size_class_stack_noexc` and its callers, `caml_free_stack`,
`caml_alloc_stack_cache`, `caml_free_stack_cache`, `caml_continuation_replace` and
`caml_drop_continuation`.  Which stacks are live (allocated and not freed since) is kept as
ghost state.
-/

namespace FiberRuntime

/-- `NUM_STACK_SIZE_CLASSES`. -/
def numStackSizeClasses : Nat := 5

/-- `Val_unit`. -/
def valUnit : Nat := 1

/-- `Val_long(1)`. -/
def valLongOne : Nat := 3

/-- A `struct c_stack_link`, with the `struct stack_frame` pushed just below it. -/
structure CStackLink where
  /-- `stack`: the OCaml stack the C call was made from. -/
  stack : Nat
  /-- `sp`: the OCaml stack pointer at the C call. -/
  sp : Nat
  /-- `async_exn_handler`. -/
  asyncExnHandler : Nat
  /-- `((struct stack_frame*)link - 1)->prev`: the frame pointer saved just below the link. -/
  framePrev : Nat
  deriving DecidableEq, Repr

/-- The fields of `Caml_state` this file reads and writes. -/
structure Domain where
  /-- `current_stack`. -/
  currentStack : Nat
  /-- `exn_handler`. -/
  exnHandler : Nat
  /-- `async_exn_handler`. -/
  asyncExnHandler : Nat
  /-- `c_stack`, most recent link first. -/
  cStack : List CStackLink
  /-- `stack_cache`: `NULL`, or the free-list heads by size class. -/
  stackCache : Option (Nat → Option Nat)
  /-- `gc_regs_buckets`. -/
  gcRegsBuckets : Option Nat

/-- The state of the runtime that stacks live in, shared by all domains. -/
structure Runtime where
  /-- The stacks holding memory. -/
  records : Stacks
  /-- The words of memory. -/
  mem : Nat → Nat
  /-- Every domain's `Caml_state`. -/
  domains : Nat → Domain
  /-- `caml_max_stack_wsize`. -/
  maxStackWsize : Nat
  /-- `fiber_id`. -/
  fiberId : Nat
  /-- `Field(cont, 0)` of every continuation, by address. -/
  conts : Nat → Option Nat
  /-- Ghost: the stacks allocated and not freed since. -/
  live : Nat → Bool
  /-- Ghost: the local-arena sets `caml_free_local_arenas` has released, in order. -/
  freedArenas : List Nat

namespace Runtime

/-- The free-list heads of a domain; a domain without a cache has none. -/
def cache (rt : Runtime) (domain : Nat) : Nat → Option Nat :=
  (rt.domains domain).stackCache.getD fun _ => none

/-- Change one domain's `Caml_state`. -/
def updateDomain (rt : Runtime) (domain : Nat) (change : Domain → Domain) : Runtime :=
  { rt with domains := Function.update rt.domains domain (change (rt.domains domain)) }

/-- `cache[bucket] = head` in the domain's cache. -/
def setCacheHead (rt : Runtime) (domain bucket : Nat) (head : Option Nat) : Runtime :=
  rt.updateDomain domain fun dom =>
    { dom with stackCache := some (Function.update (rt.cache domain) bucket head) }

/-- Write a stack's record. -/
def setStack (rt : Runtime) (stack : Nat) (info : StackInfo) : Runtime :=
  { rt with records := Function.update rt.records stack (some info) }

/-- Hand out a stack: write its record and count it live. -/
def acquire (rt : Runtime) (stack : Nat) (info : StackInfo) : Runtime :=
  { rt with
    records := Function.update rt.records stack (some info)
    live := Function.update rt.live stack true }

@[simp] theorem updateDomain_records (rt : Runtime) (domain : Nat) (change : Domain → Domain) :
    (rt.updateDomain domain change).records = rt.records := rfl

@[simp] theorem updateDomain_live (rt : Runtime) (domain : Nat) (change : Domain → Domain) :
    (rt.updateDomain domain change).live = rt.live := rfl

@[simp] theorem updateDomain_domains (rt : Runtime) (domain : Nat) (change : Domain → Domain) :
    (rt.updateDomain domain change).domains =
      Function.update rt.domains domain (change (rt.domains domain)) := rfl

@[simp] theorem updateDomain_mem (rt : Runtime) (domain : Nat) (change : Domain → Domain) :
    (rt.updateDomain domain change).mem = rt.mem := rfl

@[simp] theorem updateDomain_conts (rt : Runtime) (domain : Nat) (change : Domain → Domain) :
    (rt.updateDomain domain change).conts = rt.conts := rfl

@[simp] theorem updateDomain_freedArenas (rt : Runtime) (domain : Nat) (change : Domain → Domain) :
    (rt.updateDomain domain change).freedArenas = rt.freedArenas := rfl

theorem cache_updateDomain {rt : Runtime} {domain : Nat} {change : Domain → Domain}
    (kept : (change (rt.domains domain)).stackCache = (rt.domains domain).stackCache) :
    (rt.updateDomain domain change).cache = rt.cache := by
  funext other
  by_cases same : other = domain
  · subst same
    simp [cache, kept]
  · simp [cache, same]

@[simp] theorem cache_setCacheHead (rt : Runtime) (domain bucket : Nat) (head : Option Nat)
    (other : Nat) :
    (rt.setCacheHead domain bucket head).cache other =
      if other = domain then Function.update (rt.cache domain) bucket head else rt.cache other := by
  by_cases same : other = domain
  · subst same
    simp [setCacheHead, cache]
  · simp [setCacheHead, cache, same]

theorem cache_setCacheHead_of_ne {rt : Runtime} {domain bucket domain' bucket' : Nat}
    {head : Option Nat} (other : ¬(domain' = domain ∧ bucket' = bucket)) :
    (rt.setCacheHead domain bucket head).cache domain' bucket' = rt.cache domain' bucket' := by
  rw [cache_setCacheHead]
  split_ifs with same
  · subst same
    exact Function.update_noteq (fun sameBucket => other ⟨rfl, sameBucket⟩) _ _
  · rfl

@[simp] theorem setCacheHead_records (rt : Runtime) (domain bucket : Nat) (head : Option Nat) :
    (rt.setCacheHead domain bucket head).records = rt.records := rfl

@[simp] theorem setCacheHead_live (rt : Runtime) (domain bucket : Nat) (head : Option Nat) :
    (rt.setCacheHead domain bucket head).live = rt.live := rfl

@[simp] theorem setStack_records (rt : Runtime) (stack : Nat) (info : StackInfo) :
    (rt.setStack stack info).records = Function.update rt.records stack (some info) := rfl

@[simp] theorem setStack_live (rt : Runtime) (stack : Nat) (info : StackInfo) :
    (rt.setStack stack info).live = rt.live := rfl

@[simp] theorem setStack_domains (rt : Runtime) (stack : Nat) (info : StackInfo) :
    (rt.setStack stack info).domains = rt.domains := rfl

@[simp] theorem setStack_freedArenas (rt : Runtime) (stack : Nat) (info : StackInfo) :
    (rt.setStack stack info).freedArenas = rt.freedArenas := rfl

@[simp] theorem acquire_records (rt : Runtime) (stack : Nat) (info : StackInfo) :
    (rt.acquire stack info).records = Function.update rt.records stack (some info) := rfl

@[simp] theorem acquire_live (rt : Runtime) (stack : Nat) (info : StackInfo) :
    (rt.acquire stack info).live = Function.update rt.live stack true := rfl

@[simp] theorem acquire_domains (rt : Runtime) (stack : Nat) (info : StackInfo) :
    (rt.acquire stack info).domains = rt.domains := rfl

theorem cache_of_domains {rt rt' : Runtime} (same : rt'.domains = rt.domains) :
    rt'.cache = rt.cache := by
  unfold cache
  rw [same]

end Runtime

/-- An unpooled stack record with the given `handler` and `sp`: no parent, handlers, id or local
arenas. -/
def StackInfo.bare (handler sp : Nat) : StackInfo :=
  ⟨sp, none, handler, 0, 0, 0, none, -1, 0, 0, none, 0, none, 0⟩

/-- A runtime in which every domain runs on the live stack at `stack`, described by `info`, with
an empty stack cache and nothing else allocated. -/
def Runtime.single (stack : Nat) (info : StackInfo) (maxStackWsize : Nat) : Runtime where
  records s := if s = stack then some info else none
  mem _ := 0
  domains _ := ⟨stack, 0, 0, [], some fun _ => none, none⟩
  maxStackWsize := maxStackWsize
  fiberId := 1
  conts _ := none
  live s := s = stack
  freedArenas := []

/-- The loop of `stack_cache_bucket` from class `bucket` of `size` words, with `remaining`
classes left to try. -/
def stackCacheBucketFrom (wosize : Nat) : Nat → Nat → Nat → Int
  | 0, _, _ => -1
  | remaining + 1, bucket, size =>
      if wosize = size then bucket
      else stackCacheBucketFrom wosize remaining (bucket + 1) ((size + size) % wordModulus)

/-- `stack_cache_bucket`: the size class of `wosize`, or `-1` when it is not pooled. -/
def stackCacheBucket (env : Env) (wosize : Nat) : Int :=
  stackCacheBucketFrom wosize numStackSizeClasses 0 env.fiberWsz

/-- `size_bucket_wsz` for class `bucket`: `caml_fiber_wsz` doubled `bucket` times in `mlsize_t`. -/
def Env.classSize (env : Env) (bucket : Nat) : Nat := env.fiberWsz * 2 ^ bucket % wordModulus

theorem stackCacheBucketFrom_eq {wosize : Nat} :
    ∀ {remaining bucket size : Nat}, size < wordModulus →
      stackCacheBucketFrom wosize remaining bucket size = -1 ∨
        ∃ j, j < remaining ∧ stackCacheBucketFrom wosize remaining bucket size = ↑(bucket + j) ∧
          wosize = size * 2 ^ j % wordModulus
  | 0, _, _, _ => .inl rfl
  | remaining + 1, bucket, size, small => by
      unfold stackCacheBucketFrom
      split
      · exact .inr ⟨0, Nat.succ_pos _, rfl, by simp [Nat.mod_eq_of_lt small, *]⟩
      · rcases @stackCacheBucketFrom_eq _ remaining (bucket + 1) _
          (Nat.mod_lt (size + size) (by decide)) with none | ⟨j, below, found, sized⟩
        · exact .inl none
        · refine .inr ⟨j + 1, by omega, by rw [found]; congr 1; omega, ?_⟩
          rw [sized, Nat.mod_mul_mod, Nat.pow_succ]
          congr 1
          rw [Nat.mul_comm (2 ^ j), ← Nat.mul_assoc, Nat.mul_two]

theorem stackCacheBucketFrom_of_first {wosize : Nat} :
    ∀ {k remaining bucket size : Nat}, size < wordModulus → k < remaining →
      (∀ i < k, wosize ≠ size * 2 ^ i % wordModulus) → wosize = size * 2 ^ k % wordModulus →
        stackCacheBucketFrom wosize remaining bucket size = ↑(bucket + k)
  | _, 0, _, _, _, below, _, _ => absurd below (Nat.not_lt_zero _)
  | 0, _ + 1, bucket, size, small, _, _, sized => by
      simp [stackCacheBucketFrom, sized, Nat.mod_eq_of_lt small]
  | k + 1, remaining + 1, bucket, size, small, below, earlier, sized => by
      have doubled : ∀ i, (size + size) % wordModulus * 2 ^ i % wordModulus =
          size * 2 ^ (i + 1) % wordModulus := fun i => by
        rw [Nat.mod_mul_mod, Nat.pow_succ, Nat.mul_comm (2 ^ i), ← Nat.mul_assoc, Nat.mul_two]
      have first : wosize ≠ size := by
        simpa [Nat.mod_eq_of_lt small] using earlier 0 (Nat.succ_pos k)
      rw [stackCacheBucketFrom, if_neg first,
        @stackCacheBucketFrom_of_first wosize k remaining (bucket + 1) _ (Nat.mod_lt _ (by decide))
          (by omega)
          (fun i below => by rw [doubled]; exact earlier (i + 1) (by omega)) (by rw [doubled]; exact sized)]
      congr 1
      omega

/-- The fields `alloc_size_class_stack_noexc` sets on every stack it returns. -/
def initStack (env : Env) (info : StackInfo) (hval hexn heff : Nat) (id : Int) : StackInfo :=
  { info with
    handleValue := hval, handleExn := hexn, handleEffect := heff, parent := none
    sp := env.stackHigh info, exceptionPtr := none, id
    localArenas := none, localSp := 0, localTop := none, localLimit := 0 }

/-- The record of a block fresh from `alloc_for_stack`, its `cache_bucket` set; the fields left
uninitialised are all overwritten by `initStack`. -/
def Block.toStackInfo (block : Block) (cacheBucket : Int) : StackInfo where
  sp := 0
  exceptionPtr := none
  handler := block.handler
  handleValue := 0
  handleExn := 0
  handleEffect := 0
  parent := none
  cacheBucket := cacheBucket
  size := block.size
  id := 0
  localArenas := none
  localSp := 0
  localTop := none
  localLimit := 0

/-- `alloc_size_class_stack_noexc` on `domain`: pop the class's free list, or take a block from
`alloc_for_stack`; `none` is `NULL`. -/
def allocSizeClassStackNoexc (env : Env) (allocate : Nat → Option Nat) (rt : Runtime)
    (domain wosize : Nat) (cacheBucket : Int) (hval hexn heff : Nat) (id : Int) :
    Runtime × Option Nat :=
  match (if cacheBucket = -1 then none else rt.cache domain cacheBucket.toNat) with
  | some stack =>
      match rt.records stack with
      | some info =>
          ((rt.setCacheHead domain cacheBucket.toNat info.exceptionPtr).acquire stack
            (initStack env info hval hexn heff id), some stack)
      | none => (rt, none)
  | none =>
      match allocForStack env allocate wosize with
      | some block =>
          (rt.acquire block.stack (initStack env (block.toStackInfo cacheBucket) hval hexn heff id),
            some block.stack)
      | none => (rt, none)

theorem allocSizeClassStackNoexc_of_null {env : Env} {allocate : Nat → Option Nat}
    {rt rt' : Runtime} {domain wosize : Nat} {cacheBucket : Int} {hval hexn heff : Nat} {id : Int}
    (null : allocSizeClassStackNoexc env allocate rt domain wosize cacheBucket hval hexn heff id =
      (rt', none)) : rt' = rt := by
  unfold allocSizeClassStackNoexc at null
  split at null <;> split at null <;> cases null <;> rfl

theorem allocSizeClassStackNoexc_of_some {env : Env} {allocate : Nat → Option Nat}
    {rt rt' : Runtime} {domain wosize : Nat} {cacheBucket : Int} {hval hexn heff : Nat} {id : Int}
    {stack : Nat}
    (allocated : allocSizeClassStackNoexc env allocate rt domain wosize cacheBucket hval hexn heff id =
      (rt', some stack)) :
    ∃ info, rt'.records = Function.update rt.records stack (some (initStack env info hval hexn heff id)) ∧
      rt'.live = Function.update rt.live stack true ∧ rt'.mem = rt.mem ∧ rt'.conts = rt.conts ∧
      rt'.maxStackWsize = rt.maxStackWsize ∧ rt'.fiberId = rt.fiberId ∧
      rt'.freedArenas = rt.freedArenas ∧
      ∀ other, { rt'.domains other with stackCache := (rt.domains other).stackCache } =
        rt.domains other := by
  unfold allocSizeClassStackNoexc at allocated
  split at allocated
  · split at allocated
    · rename_i info _
      cases allocated
      refine ⟨info, rfl, rfl, rfl, rfl, rfl, rfl, rfl, fun other => ?_⟩
      by_cases same : other = domain
      · subst same
        simp [Runtime.setCacheHead]
      · simp [Runtime.setCacheHead, same]
    · cases allocated
  · split at allocated
    · cases allocated
      exact ⟨_, rfl, rfl, rfl, rfl, rfl, rfl, rfl, fun _ => rfl⟩
    · cases allocated

/-- `caml_alloc_stack_noexc`. -/
def camlAllocStackNoexc (env : Env) (allocate : Nat → Option Nat) (rt : Runtime)
    (domain wosize hval hexn heff : Nat) (id : Int) : Runtime × Option Nat :=
  allocSizeClassStackNoexc env allocate rt domain wosize (stackCacheBucket env wosize)
    hval hexn heff id

/-- `caml_alloc_stack`: a fiber stack from the first class, with a fresh id; bytecode also pushes
`Val_long(1)`. -/
def camlAllocStack (env : Env) (allocate : Nat → Option Nat) (rt : Runtime)
    (domain hval hexn heff : Nat) : Runtime × Except Failure Nat :=
  let id := rt.fiberId
  let rt := { rt with fiberId := rt.fiberId + 1 }
  match allocSizeClassStackNoexc env allocate rt domain env.fiberWsz 0 hval hexn heff id with
  | (rt, none) => (rt, .error .outOfMemory)
  | (rt, some stack) =>
      if env.nativeCode then (rt, .ok stack)
      else
        match rt.records stack with
        | some info =>
            let sp := env.stackHigh info - 1
            ({ rt.setStack stack { info with sp } with mem := Function.update rt.mem sp valLongOne },
              .ok stack)
        | none => (rt, .ok stack)

/-- `caml_alloc_main_stack`. -/
def camlAllocMainStack (env : Env) (allocate : Nat → Option Nat) (rt : Runtime)
    (domain initWsize : Nat) : Runtime × Option Nat :=
  camlAllocStackNoexc env allocate { rt with fiberId := rt.fiberId + 1 } domain initWsize
    valUnit valUnit valUnit rt.fiberId

/-- `free_stack_memory`: give a stack's memory back to the backend. -/
def freeStackMemory (rt : Runtime) (stack : Nat) : Runtime :=
  { rt with records := Function.update rt.records stack none }

/-- `caml_free_stack` on `domain`: release the stack's local arenas, then push it on its class's
free list, or give it back to the backend when it is unpooled. -/
def camlFreeStack (rt : Runtime) (domain stack : Nat) : Runtime :=
  match rt.records stack with
  | none => rt
  | some info =>
      let rt := { rt with
        freedArenas := rt.freedArenas ++ info.localArenas.toList
        live := Function.update rt.live stack false }
      if info.cacheBucket = -1 then freeStackMemory rt stack
      else
        (rt.setStack stack { info with exceptionPtr := rt.cache domain info.cacheBucket.toNat }
          ).setCacheHead domain info.cacheBucket.toNat (some stack)

theorem camlFreeStack_of_found {rt : Runtime} {domain stack : Nat} {info : StackInfo}
    (found : rt.records stack = some info) :
    (camlFreeStack rt domain stack).live = Function.update rt.live stack false ∧
    (camlFreeStack rt domain stack).freedArenas = rt.freedArenas ++ info.localArenas.toList ∧
    (camlFreeStack rt domain stack).mem = rt.mem ∧
    (∀ other, other ≠ stack → (camlFreeStack rt domain stack).records other = rt.records other) ∧
    ∀ other, { (camlFreeStack rt domain stack).domains other with
      stackCache := (rt.domains other).stackCache } = rt.domains other := by
  unfold camlFreeStack
  rw [found]
  dsimp only
  split
  · exact ⟨rfl, rfl, rfl, fun other distinct => by simp [freeStackMemory, distinct], fun _ => rfl⟩
  · refine ⟨rfl, rfl, rfl, fun other distinct => by simp [distinct], fun other => ?_⟩
    by_cases same : other = domain
    · subst same
      simp [Runtime.setCacheHead]
    · simp [Runtime.setCacheHead, same]

/-- What `caml_free_stack` does to `stack`, recorded as `info`, on `domain`: the stack is no longer
live and its local arenas are released; a pooled stack goes on top of its class's free list, its
`exception_ptr` linking the old head, and an unpooled one gives its memory back.  Nothing else
changes. -/
structure Freed (rt rt' : Runtime) (domain stack : Nat) (info : StackInfo) : Prop where
  live : rt'.live = Function.update rt.live stack false
  arenas : rt'.freedArenas = rt.freedArenas ++ info.localArenas.toList
  mem : rt'.mem = rt.mem
  conts : rt'.conts = rt.conts
  others : ∀ other, other ≠ stack → rt'.records other = rt.records other
  released : if info.cacheBucket = -1 then rt'.records stack = none ∧ rt'.cache = rt.cache
    else rt'.records stack = some { info with exceptionPtr := rt.cache domain info.cacheBucket.toNat } ∧
      rt'.cache = Function.update rt.cache domain
        (Function.update (rt.cache domain) info.cacheBucket.toNat (some stack))

theorem camlFreeStack_freed {rt : Runtime} {domain stack : Nat} {info : StackInfo}
    (found : rt.records stack = some info) :
    Freed rt (camlFreeStack rt domain stack) domain stack info := by
  unfold camlFreeStack
  rw [found]
  dsimp only
  split
  · rename_i unpooled
    refine ⟨rfl, rfl, rfl, rfl, fun other distinct => by simp [freeStackMemory, distinct], ?_⟩
    rw [if_pos unpooled]
    exact ⟨by simp [freeStackMemory], Runtime.cache_of_domains rfl⟩
  · rename_i pooled
    refine ⟨rfl, rfl, rfl, rfl, fun other distinct => by simp [distinct], ?_⟩
    rw [if_neg pooled]
    refine ⟨by simp [Runtime.cache], funext fun other => ?_⟩
    rw [Runtime.cache_setCacheHead]
    by_cases same : other = domain
    · subst same
      simp only [if_true, Function.update_same]
      rfl
    · simp only [same, if_false, ne_eq, not_false_eq_true, Function.update_noteq]
      rfl

/-- Freeing a pooled stack and then asking the same domain for a stack of its class gives that
stack back from the top of the free list, whatever the backend would answer, with every list as it
was before the free; freeing an unpooled stack gives its memory back and leaves every list as it
was. -/
theorem free_then_alloc_reuses_stack {env : Env} {rt : Runtime} {domain stack : Nat}
    {info : StackInfo} (found : rt.records stack = some info)
    (cached : (rt.domains domain).stackCache ≠ none) :
    (info.cacheBucket ≠ -1 → ∀ allocate wosize hval hexn heff id,
      stackCacheBucket env wosize = info.cacheBucket →
      camlAllocStackNoexc env allocate (camlFreeStack rt domain stack) domain wosize hval hexn heff id =
        ({ rt with freedArenas := rt.freedArenas ++ info.localArenas.toList }.acquire stack
          (initStack env info hval hexn heff id), some stack)) ∧
    (info.cacheBucket = -1 →
      (camlFreeStack rt domain stack).records stack = none ∧
        (camlFreeStack rt domain stack).live stack = false ∧
        (camlFreeStack rt domain stack).cache = rt.cache) := by
  have freed := @camlFreeStack_freed rt domain stack info found
  refine ⟨fun pooled allocate wosize hval hexn heff id bucket => ?_, fun unpooled => ?_⟩
  · obtain ⟨heads, cache⟩ := Option.ne_none_iff_exists'.mp cached
    have released := freed.released
    rw [if_neg pooled] at released
    obtain ⟨pushed, lists⟩ := released
    -- the allocation pops the stack the free pushed
    unfold camlAllocStackNoexc allocSizeClassStackNoexc
    rw [bucket, if_neg pooled, lists]
    simp only [Function.update_same, pushed]
    -- and the pop restores the list head
    unfold camlFreeStack
    simp only [found, if_neg pooled, Runtime.acquire, Runtime.setCacheHead, Runtime.updateDomain,
      Runtime.setStack, Function.update_idem, Function.update_same, Runtime.mk.injEq,
      Prod.mk.injEq]
    refine ⟨⟨rfl, trivial, ?_, trivial, trivial, trivial, trivial, trivial⟩, trivial⟩
    simp only [Runtime.cache, Function.update_same, Option.getD_some, Function.update_idem,
      Function.update_eq_self, cache]
    rw [← cache]
    exact Function.update_eq_self domain rt.domains
  · have released := freed.released
    rw [if_pos unpooled] at released
    exact ⟨released.1, by simp [freed.live], released.2⟩

/-- A stack of the first class, at `4096`, in a runtime whose domains have empty caches. -/
def pooledRecord : StackInfo := ⟨4171, none, 4172, 0, 0, 0, none, 0, 0, 0, none, 0, none, 0⟩

/-- Freed and asked for again on domain `0`, the stack at `4096` comes back. -/
theorem freed_stack_reused :
    (Runtime.single 4096 pooledRecord 1024).records 4096 = some pooledRecord ∧
      ((Runtime.single 4096 pooledRecord 1024).domains 0).stackCache ≠ none ∧
      ∀ allocate, camlAllocStackNoexc (samplePlatform .plain true 64) allocate
          (camlFreeStack (Runtime.single 4096 pooledRecord 1024) 0 4096) 0 64 1 1 1 2 =
        ({ Runtime.single 4096 pooledRecord 1024 with
            freedArenas := (Runtime.single 4096 pooledRecord 1024).freedArenas ++
              pooledRecord.localArenas.toList }.acquire 4096
          (initStack (samplePlatform .plain true 64) pooledRecord 1 1 1 2), some 4096) :=
  have found : (Runtime.single 4096 pooledRecord 1024).records 4096 = some pooledRecord := rfl
  have cached : ((Runtime.single 4096 pooledRecord 1024).domains 0).stackCache ≠ none := by
    simp [Runtime.single]
  ⟨found, cached, fun allocate =>
    (free_then_alloc_reuses_stack found cached).1 (by decide) allocate 64 1 1 1 2 (by decide)⟩

/-- `caml_alloc_stack_cache` as the domain installs it: `allocated` says whether the array of
heads could be allocated. -/
def camlAllocStackCache (rt : Runtime) (domain : Nat) (allocated : Bool) : Runtime :=
  rt.updateDomain domain fun dom =>
    { dom with stackCache := if allocated then some fun _ => none else none }

/-- The state with the memory of `released` given back to the backend. -/
def Runtime.withoutStacks (rt : Runtime) (released : List Nat) : Runtime :=
  { rt with records := fun stack => if stack ∈ released then none else rt.records stack }

/-- The `while` loop of `caml_free_stack_cache` on one free list, with `fuel` iterations: the
state after it and the stacks released in order, or `none` if it needs more iterations or
reads a released stack. -/
def freeCachedStacks : Nat → Runtime → Option Nat → Option (Runtime × List Nat)
  | 0, _, _ => none
  | _ + 1, rt, none => some (rt, [])
  | fuel + 1, rt, some stack =>
      match rt.records stack with
      | none => none
      | some info =>
          (freeCachedStacks fuel (freeStackMemory rt stack) info.exceptionPtr).map
            fun (rt, released) => (rt, stack :: released)

/-- One iteration of the `for` loop of `caml_free_stack_cache`: release the list of `bucket`
after those already released. -/
def freeCachedBucket (fuel : Nat) (heads : Nat → Option Nat) (done : Runtime × List Nat)
    (bucket : Nat) : Option (Runtime × List Nat) :=
  (freeCachedStacks fuel done.1 (heads bucket)).map fun step => (step.1, done.2 ++ step.2)

/-- `caml_free_stack_cache` on a domain's cache: release every list in class order, then free
the array. -/
def camlFreeStackCache (fuel : Nat) (rt : Runtime) (domain : Nat) :
    Option (Runtime × List Nat) :=
  ((List.range numStackSizeClasses).foldlM (freeCachedBucket fuel (rt.cache domain)) (rt, [])).map
    fun done => (done.1.updateDomain domain fun dom => { dom with stackCache := none }, done.2)

/-- `caml_continuation_replace`, whose assertion requires an empty slot. -/
def camlContinuationReplace (rt : Runtime) (cont stack : Nat) : Runtime :=
  { rt with conts := Function.update rt.conts cont (some stack) }

/-- `caml_drop_continuation` on `domain`: take the chain, raising if it is gone, and free the
stack it names. -/
def camlDropContinuation (rt : Runtime) (domain cont : Nat) : Runtime × Except Failure Unit :=
  match rt.conts cont with
  | none => (rt, .error .continuationAlreadyResumed)
  | some stack =>
      (camlFreeStack { rt with conts := Function.update rt.conts cont none } domain stack, .ok ())

end FiberRuntime
