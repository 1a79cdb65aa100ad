import Mathlib.Data.List.Nodup
import FiberRuntime.Growth

/-!
# The stack store

Stacks are handed out by `alloc_size_class_stack_noexc`, from a free list of the domain's
`stack_cache` or from `alloc_for_stack`, and handed back by `caml_free_stack`, onto the free list
of their size class or to the backend.  This file states what the store keeps true under any
sequence of the stack operations of `fiber.c` on any number of domains, and proves it from what
one operation can do: the free lists are finite, acyclic and pairwise disjoint, hold no live
stack and only stacks of their class, with room for the class; and no two stacks overlap.
-/

namespace FiberRuntime

/-- A stack has room for `words` words: `Stack_high(stack) - Stack_base(stack) >= words`. -/
def Env.HasRoom (env : Env) (stack : Nat) (info : StackInfo) (words : Nat) : Prop :=
  env.stackBase stack + words ≤ env.stackHigh info

theorem Env.LengthFits.mono {env : Env} {wosize wosize' : Nat} (fits : env.LengthFits wosize)
    (smaller : wosize' ≤ wosize) : env.LengthFits wosize' := by
  unfold Env.LengthFits at *
  split <;> simp_all only <;> omega

theorem hasRoom_of_allocForStack {env : Env} {records : Stacks} (system : SystemAllocator env records)
    {wosize : Nat} {block : Block} (fits : env.LengthFits wosize)
    (allocated : allocForStack env system.allocate wosize = some block) {info : StackInfo}
    (handler : info.handler = block.handler) : env.HasRoom block.stack info wosize := by
  obtain ⟨-, -, -, room⟩ := allocForStack_spec system fits allocated
  unfold Env.HasRoom Env.stackHigh
  omega

/-- The request and the class `alloc_size_class_stack_noexc` is called with agree: the stack is
unpooled, or pooled in a class whose size is the request. -/
def Env.Sized (env : Env) (wosize : Nat) (cacheBucket : Int) : Prop :=
  cacheBucket ≠ -1 → 0 ≤ cacheBucket ∧ cacheBucket < numStackSizeClasses ∧
    wosize = env.classSize cacheBucket.toNat

theorem stackCacheBucket_sized (env : Env) (wosize : Nat) :
    env.Sized wosize (stackCacheBucket env wosize) := by
  intro pooled
  rcases @stackCacheBucketFrom_eq wosize numStackSizeClasses 0 env.fiberWsz env.fiberWsz_lt with
    none | ⟨j, below, found, sized⟩
  · exact absurd none pooled
  · unfold stackCacheBucket
    rw [found, Nat.zero_add, Int.toNat_ofNat]
    exact ⟨Int.ofNat_nonneg j, Int.ofNat_lt.mpr below, sized⟩

theorem fiberWsz_sized (env : Env) : env.Sized env.fiberWsz 0 := fun _ =>
  ⟨Int.le_refl 0, by decide, by simp [Env.classSize, Nat.mod_eq_of_lt env.fiberWsz_lt]⟩

namespace Store

/-- `records` links `head` through `exception_ptr` to the stacks of `list`, in order, ending in
`NULL`. -/
inductive FreeList (records : Stacks) : Option Nat → List Nat → Prop
  /-- The empty list. -/
  | null : FreeList records none []
  /-- A stack whose `exception_ptr` heads the rest of the list. -/
  | link {stack : Nat} {info : StackInfo} {rest : List Nat} :
      records stack = some info → FreeList records info.exceptionPtr rest →
      FreeList records (some stack) (stack :: rest)

namespace FreeList

variable {records records' : Stacks} {head : Option Nat} {list : List Nat}

theorem eq_nil (linked : FreeList records none list) : list = [] := by
  cases linked
  rfl

theorem of_some {stack : Nat} (linked : FreeList records (some stack) list) :
    ∃ info rest, records stack = some info ∧ list = stack :: rest ∧
      FreeList records info.exceptionPtr rest := by
  cases linked with
  | link found rest => exact ⟨_, _, found, rfl, rest⟩

theorem recorded (linked : FreeList records head list) {stack : Nat} (listed : stack ∈ list) :
    ∃ info, records stack = some info := by
  induction linked with
  | null => cases listed
  | @link top info rest found _ ih =>
      rcases List.mem_cons.mp listed with rfl | later
      · exact ⟨info, found⟩
      · exact ih later

theorem congr (linked : FreeList records head list)
    (same : ∀ stack ∈ list, records' stack = records stack) : FreeList records' head list := by
  induction linked with
  | null => exact .null
  | @link top info rest found _ ih =>
      exact .link ((same top (List.mem_cons_self _ _)).trans found)
        (ih fun stack listed => same stack (List.mem_cons_of_mem _ listed))

theorem unique (linked : FreeList records head list) {list' : List Nat}
    (linked' : FreeList records head list') : list = list' := by
  induction linked generalizing list' with
  | null => exact (eq_nil linked').symm
  | @link top info rest found _ ih =>
      obtain ⟨info', rest', found', rfl, next'⟩ := of_some linked'
      rw [found] at found'
      cases found'
      rw [ih next']

end FreeList

/-- What a stack's layout is: its handler, which fixes its extent and room, and its class. -/
def stackLayout (info : StackInfo) : Nat × Int := (info.handler, info.cacheBucket)

/-- `lists` with the list of class `bucket` of `domain` replaced by `list`. -/
def setList (lists : Nat → Nat → List Nat) (domain bucket : Nat) (list : List Nat) :
    Nat → Nat → List Nat := fun domain' bucket' =>
  if domain' = domain ∧ bucket' = bucket then list else lists domain' bucket'

theorem setList_of_ne {lists : Nat → Nat → List Nat} {domain bucket domain' bucket' : Nat}
    {list : List Nat} (other : ¬(domain' = domain ∧ bucket' = bucket)) :
    setList lists domain bucket list domain' bucket' = lists domain' bucket' :=
  if_neg other

/-- The store invariant, over the free list `lists domain bucket` of every domain and class. -/
structure Invariant (env : Env) (rt : Runtime) (lists : Nat → Nat → List Nat) : Prop where
  /-- Each free list is the one its head links. -/
  linked : ∀ domain bucket, FreeList rt.records (rt.cache domain bucket) (lists domain bucket)
  /-- Only the `NUM_STACK_SIZE_CLASSES` classes have lists. -/
  classes : ∀ domain bucket, numStackSizeClasses ≤ bucket → lists domain bucket = []
  /-- No list runs into a cycle. -/
  nodup : ∀ domain bucket, (lists domain bucket).Nodup
  /-- No stack is on two lists. -/
  disjoint : ∀ domain bucket domain' bucket' stack, stack ∈ lists domain bucket →
    stack ∈ lists domain' bucket' → domain = domain' ∧ bucket = bucket'
  /-- No list holds a live stack. -/
  idle : ∀ domain bucket stack, stack ∈ lists domain bucket → rt.live stack = false
  /-- A listed stack is filed under its `cache_bucket`. -/
  filed : ∀ domain bucket stack info, stack ∈ lists domain bucket → rt.records stack = some info →
    info.cacheBucket = bucket
  /-- A pooled stack has a class, and room for it when the class's byte length fits. -/
  pooled : ∀ stack info, rt.records stack = some info → info.cacheBucket ≠ -1 →
    0 ≤ info.cacheBucket ∧ info.cacheBucket < numStackSizeClasses ∧
      (env.LengthFits (env.classSize info.cacheBucket.toNat) →
        env.HasRoom stack info (env.classSize info.cacheBucket.toNat))
  /-- A live stack holds memory. -/
  recorded : ∀ stack, rt.live stack = true → rt.records stack ≠ none
  /-- No two stacks overlap. -/
  separate : ∀ stack info stack' info', rt.records stack = some info →
    rt.records stack' = some info' → stack ≠ stack' →
      info.extentEnd ≤ stack' ∨ info'.extentEnd ≤ stack
  /-- A stack that holds memory is live or cached: the store loses none. -/
  owned : ∀ stack, rt.records stack ≠ none → rt.live stack = true ∨
    ∃ domain bucket, stack ∈ lists domain bucket
  /-- Every stack lies in the address space. -/
  addressed : ∀ stack info, rt.records stack = some info → info.extentEnd ≤ addressWords

/-- What most steps leave alone: every stack's layout, the records of the stacks that are not
live, which stacks are live, and every free-list head. -/
structure Frame (rt rt' : Runtime) : Prop where
  layout : ∀ stack, (rt'.records stack).map stackLayout = (rt.records stack).map stackLayout
  idle : ∀ stack, rt.live stack = false → rt'.records stack = rt.records stack
  live : rt'.live = rt.live
  cache : rt'.cache = rt.cache

namespace Frame

theorem refl (rt : Runtime) : Frame rt rt := ⟨fun _ => rfl, fun _ _ => rfl, rfl, rfl⟩

theorem trans {rt rt' rt'' : Runtime} (first : Frame rt rt') (second : Frame rt' rt'') :
    Frame rt rt'' :=
  ⟨fun stack => (second.layout stack).trans (first.layout stack),
    fun stack idle => (second.idle stack (first.live ▸ idle)).trans (first.idle stack idle),
    second.live.trans first.live, second.cache.trans first.cache⟩

theorem recorded {rt rt' : Runtime} (frame : Frame rt rt') {stack : Nat} {info' : StackInfo}
    (found : rt'.records stack = some info') :
    ∃ info, rt.records stack = some info ∧ info'.handler = info.handler ∧
      info'.cacheBucket = info.cacheBucket := by
  have same := frame.layout stack
  rw [found] at same
  obtain ⟨info, found, laid⟩ := Option.map_eq_some'.mp same.symm
  simp only [stackLayout, Prod.mk.injEq] at laid
  exact ⟨info, found, laid.1.symm, laid.2.symm⟩

theorem setStack {rt : Runtime} {stack : Nat} {info info' : StackInfo}
    (live : rt.live stack = true) (found : rt.records stack = some info)
    (laid : stackLayout info' = stackLayout info) : Frame rt (rt.setStack stack info') := by
  refine ⟨fun other => ?_, fun other idle => ?_, rfl, rfl⟩
  · by_cases same : other = stack
    · subst same
      simp [found, laid]
    · simp [same]
  · have : other ≠ stack := by rintro rfl; simp_all
    simp [this]

theorem updateDomain {rt : Runtime} {domain : Nat} {change : Domain → Domain}
    (kept : (change (rt.domains domain)).stackCache = (rt.domains domain).stackCache) :
    Frame rt (rt.updateDomain domain change) :=
  ⟨fun _ => rfl, fun _ _ => rfl, rfl, Runtime.cache_updateDomain kept⟩

end Frame

namespace Invariant

variable {env : Env} {rt rt' : Runtime} {lists : Nat → Nat → List Nat}

theorem handlers_update {records : Stacks} {stack : Nat} {info : StackInfo}
    {written : Option StackInfo} (found : records stack = some info)
    (same : ∀ new ∈ written, new.handler = info.handler) (other : Nat) (new : StackInfo)
    (found' : Function.update records stack written other = some new) :
    ∃ old, records other = some old ∧ new.handler = old.handler := by
  by_cases here : other = stack
  · subst here
    rw [Function.update_same] at found'
    exact ⟨info, found, same new found'⟩
  · rw [Function.update_noteq here] at found'
    exact ⟨new, found', rfl⟩

theorem separate_of_handlers (inv : Invariant env rt lists) {records : Stacks}
    (kept : ∀ stack new, records stack = some new →
      ∃ old, rt.records stack = some old ∧ new.handler = old.handler)
    {stack stack' : Nat} {info info' : StackInfo} (found : records stack = some info)
    (found' : records stack' = some info') (distinct : stack ≠ stack') :
    info.extentEnd ≤ stack' ∨ info'.extentEnd ≤ stack := by
  obtain ⟨old, found, handler⟩ := kept stack info found
  obtain ⟨old', found', handler'⟩ := kept stack' info' found'
  simpa only [StackInfo.extentEnd, handler, handler'] using
    inv.separate stack old stack' old' found found' distinct

theorem addressed_of_handlers (inv : Invariant env rt lists) {records : Stacks}
    (kept : ∀ stack new, records stack = some new →
      ∃ old, rt.records stack = some old ∧ new.handler = old.handler)
    (stack : Nat) (info : StackInfo) (found : records stack = some info) :
    info.extentEnd ≤ addressWords := by
  obtain ⟨old, found, handler⟩ := kept stack info found
  simpa only [StackInfo.extentEnd, handler] using inv.addressed stack old found

theorem frame (inv : Invariant env rt lists) (step : Frame rt rt') : Invariant env rt' lists where
  linked domain bucket := by
    rw [step.cache]
    exact (inv.linked domain bucket).congr fun stack listed =>
      step.idle stack (inv.idle domain bucket stack listed)
  classes := inv.classes
  nodup := inv.nodup
  disjoint := inv.disjoint
  idle domain bucket stack listed := step.live ▸ inv.idle domain bucket stack listed
  filed domain bucket stack info listed found := by
    rw [step.idle stack (inv.idle domain bucket stack listed)] at found
    exact inv.filed domain bucket stack info listed found
  pooled stack info' found pooled := by
    obtain ⟨info, found, handler, bucket⟩ := step.recorded found
    have room := inv.pooled stack info found (bucket ▸ pooled)
    simp only [Env.HasRoom, Env.stackHigh, handler, bucket] at room ⊢
    exact room
  recorded stack live := by
    have same := step.layout stack
    rw [step.live] at live
    intro none'
    rw [none'] at same
    exact inv.recorded stack live (Option.map_eq_none'.mp same.symm)
  separate _ _ _ _ := inv.separate_of_handlers fun _ _ found =>
    (step.recorded found).imp fun _ ⟨found, handler, _⟩ => ⟨found, handler⟩
  owned stack recorded := by
    rw [step.live]
    refine inv.owned stack fun none' => recorded ?_
    have same := step.layout stack
    rw [none'] at same
    exact Option.map_eq_none'.mp same
  addressed := inv.addressed_of_handlers fun _ _ found =>
    (step.recorded found).imp fun _ ⟨found, handler, _⟩ => ⟨found, handler⟩

theorem acquire_fresh (inv : Invariant env rt lists) {start words : Nat} {info : StackInfo}
    (fresh : FreshBlock rt.records start words)
    (inside : info.handler + stackHandlerWords ≤ start + words)
    (pooled : info.cacheBucket ≠ -1 → 0 ≤ info.cacheBucket ∧
      info.cacheBucket < numStackSizeClasses ∧
        (env.LengthFits (env.classSize info.cacheBucket.toNat) →
          env.HasRoom start info (env.classSize info.cacheBucket.toNat))) :
    Invariant env (rt.acquire start info) lists := by
  have unrecorded : rt.records start = none := by
    cases found : rt.records start with
    | none => rfl
    | some other => exact absurd rfl (fresh.2.2 start other found).1
  have unlisted : ∀ domain bucket stack, stack ∈ lists domain bucket → stack ≠ start := by
    rintro domain bucket stack listed rfl
    obtain ⟨info, found⟩ := (inv.linked domain bucket).recorded listed
    simp [found] at unrecorded
  have cached : (rt.acquire start info).cache = rt.cache := Runtime.cache_of_domains rfl
  refine ⟨fun domain bucket => ?_, inv.classes, inv.nodup, inv.disjoint,
    fun domain bucket stack listed => ?_, fun domain bucket stack info' listed found => ?_,
    fun stack info' found pooled' => ?_, fun stack live => ?_,
    fun stack info' stack' info'' found found' distinct => ?_, fun stack recorded => ?_,
    fun stack info' found => ?_⟩
  · rw [cached]
    exact (inv.linked domain bucket).congr fun stack listed => by
      simp [unlisted domain bucket stack listed]
  · simpa [unlisted domain bucket stack listed] using inv.idle domain bucket stack listed
  · simp only [Runtime.acquire_records, Function.update_noteq (unlisted domain bucket stack listed)]
      at found
    exact inv.filed domain bucket stack info' listed found
  · by_cases here : stack = start
    · subst here
      simp only [Runtime.acquire_records, Function.update_same, Option.some.injEq] at found
      exact found ▸ pooled (found ▸ pooled')
    · simp only [Runtime.acquire_records, Function.update_noteq here] at found
      exact inv.pooled stack info' found pooled'
  · by_cases here : stack = start
    · simp [here]
    · simp only [Runtime.acquire_live, Function.update_noteq here] at live
      simpa [here] using inv.recorded stack live
  · have apart := fun other info found => (fresh.2.2 other info found).2
    simp only [StackInfo.extentEnd] at inside ⊢
    by_cases here : stack = start <;> by_cases here' : stack' = start
    · exact absurd (here.trans here'.symm) distinct
    · subst here
      simp only [Runtime.acquire_records, Function.update_same, Option.some.injEq,
        Function.update_noteq here'] at found found'
      subst found
      rcases apart stack' info'' found' with below | above
      · exact .inl (by omega)
      · exact .inr above
    · subst here'
      simp only [Runtime.acquire_records, Function.update_same, Option.some.injEq,
        Function.update_noteq here] at found found'
      subst found'
      rcases apart stack info' found with below | above
      · exact .inr (by omega)
      · exact .inl above
    · simp only [Runtime.acquire_records, Function.update_noteq here,
        Function.update_noteq here'] at found found'
      exact inv.separate stack info' stack' info'' found found' distinct
  · by_cases here : stack = start
    · simp [here]
    · simp only [Runtime.acquire_records, Runtime.acquire_live, Function.update_noteq here]
        at recorded ⊢
      exact inv.owned stack recorded
  · by_cases here : stack = start
    · subst here
      simp only [Runtime.acquire_records, Function.update_same, Option.some.injEq] at found
      subst found
      exact inside.trans fresh.2.1
    · simp only [Runtime.acquire_records, Function.update_noteq here] at found
      exact inv.addressed stack info' found

theorem pop (inv : Invariant env rt lists) {domain bucket stack : Nat} {info info' : StackInfo}
    (head : rt.cache domain bucket = some stack) (found : rt.records stack = some info)
    (laid : stackLayout info' = stackLayout info) :
    Invariant env ((rt.setCacheHead domain bucket info.exceptionPtr).acquire stack info')
      (setList lists domain bucket (lists domain bucket).tail) := by
  have linked := inv.linked domain bucket
  rw [head] at linked
  obtain ⟨info₀, rest, found₀, listed, next⟩ := linked.of_some
  rw [found] at found₀
  cases found₀
  rw [listed, List.tail_cons]
  simp only [stackLayout, Prod.mk.injEq] at laid
  have nodup := inv.nodup domain bucket
  rw [listed] at nodup
  have fresh : stack ∉ rest := (List.nodup_cons.mp nodup).1
  have kept : ∀ domain' bucket' other, other ∈ setList lists domain bucket rest domain' bucket' →
      other ∈ lists domain' bucket' ∧ other ≠ stack := by
    intro domain' bucket' other listed'
    simp only [setList] at listed'
    split_ifs at listed' with here
    · obtain ⟨rfl, rfl⟩ := here
      rw [listed]
      exact ⟨List.mem_cons_of_mem _ listed', fun same => fresh (same ▸ listed')⟩
    · refine ⟨listed', fun same => here ?_⟩
      subst same
      obtain ⟨first, second⟩ := inv.disjoint _ _ _ _ _ (listed ▸ List.mem_cons_self _ _) listed'
      exact ⟨first.symm, second.symm⟩
  have cached : ((rt.setCacheHead domain bucket info.exceptionPtr).acquire stack info').cache =
      (rt.setCacheHead domain bucket info.exceptionPtr).cache := Runtime.cache_of_domains rfl
  refine ⟨fun domain' bucket' => ?_, fun domain' bucket' large => ?_,
    fun domain' bucket' => ?_, fun domain' bucket' domain'' bucket'' other first second =>
      inv.disjoint _ _ _ _ _ (kept _ _ _ first).1 (kept _ _ _ second).1,
    fun domain' bucket' other listed' => ?_, fun domain' bucket' other new listed' found' => ?_,
    fun other new found' pooled' => ?_, fun other live => ?_,
    fun _ _ _ _ => inv.separate_of_handlers (handlers_update found fun _ written => by
      cases written; exact laid.1), fun other recorded => ?_,
    inv.addressed_of_handlers (handlers_update found fun _ written => by cases written; exact laid.1)⟩
  · rw [cached, Runtime.acquire_records]
    refine FreeList.congr ?_ fun other listed' => Function.update_noteq (kept _ _ _ listed').2 _ _
    by_cases here : domain' = domain ∧ bucket' = bucket
    · obtain ⟨rfl, rfl⟩ := here
      simpa [setList] using next
    · rw [Runtime.cache_setCacheHead_of_ne here, setList_of_ne here]
      exact inv.linked domain' bucket'
  · simp only [setList]
    split_ifs with here
    · obtain ⟨rfl, rfl⟩ := here
      have empty := inv.classes domain' bucket' large
      rw [listed] at empty
      cases empty
    · exact inv.classes _ _ large
  · simp only [setList]
    split_ifs with here
    · exact (List.nodup_cons.mp nodup).2
    · exact inv.nodup _ _
  · obtain ⟨listed', distinct⟩ := kept _ _ _ listed'
    simpa [distinct] using inv.idle _ _ _ listed'
  · obtain ⟨listed', distinct⟩ := kept _ _ _ listed'
    simp only [Runtime.acquire_records, Function.update_noteq distinct,
      Runtime.setCacheHead_records] at found'
    exact inv.filed _ _ _ _ listed' found'
  · simp only [Runtime.acquire_records, Runtime.setCacheHead_records] at found'
    by_cases here : other = stack
    · subst here
      simp only [Function.update_same, Option.some.injEq] at found'
      subst found'
      simp only [Env.HasRoom, Env.stackHigh, laid.1, laid.2] at pooled' ⊢
      exact inv.pooled _ info found pooled'
    · rw [Function.update_noteq here] at found'
      exact inv.pooled _ _ found' pooled'
  · by_cases here : other = stack
    · simp [here]
    · simp only [Runtime.acquire_live, Runtime.setCacheHead_live, Function.update_noteq here]
        at live
      simpa [here] using inv.recorded other live
  · by_cases here : other = stack
    · simp [here]
    · simp only [Runtime.acquire_records, Runtime.setCacheHead_records, Runtime.acquire_live,
        Runtime.setCacheHead_live, Function.update_noteq here] at recorded ⊢
      refine (inv.owned other recorded).imp_right
        fun ⟨domain', bucket', listed'⟩ => ⟨domain', bucket', ?_⟩
      by_cases same : domain' = domain ∧ bucket' = bucket
      · obtain ⟨rfl, rfl⟩ := same
        rw [listed] at listed'
        simpa [setList, here] using listed'
      · rwa [setList_of_ne same]

theorem unlisted_of_live (inv : Invariant env rt lists) {stack : Nat}
    (live : rt.live stack = true) {domain bucket : Nat} : stack ∉ lists domain bucket :=
  fun listed => by simp [inv.idle domain bucket stack listed] at live

theorem release (inv : Invariant env rt lists) {domain stack : Nat} {info : StackInfo}
    (live : rt.live stack = true) (found : rt.records stack = some info)
    (unpooled : info.cacheBucket = -1) : Invariant env (camlFreeStack rt domain stack) lists := by
  have apart : ∀ domain bucket other, other ∈ lists domain bucket → other ≠ stack :=
    fun domain bucket other listed same => inv.unlisted_of_live live (same ▸ listed)
  have records : (camlFreeStack rt domain stack).records = Function.update rt.records stack none := by
    simp [camlFreeStack, found, unpooled, freeStackMemory]
  have lives : (camlFreeStack rt domain stack).live = Function.update rt.live stack false := by
    simp [camlFreeStack, found, unpooled, freeStackMemory]
  have cached : (camlFreeStack rt domain stack).cache = rt.cache :=
    Runtime.cache_of_domains (by simp [camlFreeStack, found, unpooled, freeStackMemory])
  refine ⟨fun domain bucket => ?_, inv.classes, inv.nodup, inv.disjoint,
    fun domain bucket other listed => ?_, fun domain bucket other info listed found => ?_,
    fun other info found pooled => ?_, fun other live' => ?_,
    fun _ _ _ _ found' found'' => inv.separate_of_handlers
      (handlers_update found fun _ written => absurd written (Option.not_mem_none _)) (records ▸ found')
      (records ▸ found''), fun other recorded => ?_,
    fun _ _ found' => inv.addressed_of_handlers
      (handlers_update found fun _ written => absurd written (Option.not_mem_none _)) _ _
      (records ▸ found')⟩
  · rw [cached, records]
    exact (inv.linked domain bucket).congr fun other listed =>
      Function.update_noteq (apart domain bucket other listed) _ _
  · simpa [lives, apart domain bucket other listed] using inv.idle domain bucket other listed
  · rw [records, Function.update_noteq (apart domain bucket other listed)] at found
    exact inv.filed domain bucket other info listed found
  · rw [records] at found
    by_cases here : other = stack
    · subst here
      simp at found
    · rw [Function.update_noteq here] at found
      exact inv.pooled other info found pooled
  · rw [lives] at live'
    by_cases here : other = stack
    · subst here
      simp at live'
    · rw [Function.update_noteq here] at live'
      rw [records, Function.update_noteq here]
      exact inv.recorded other live'
  · rw [records] at recorded
    rw [lives]
    by_cases here : other = stack
    · subst here
      simp at recorded
    · rw [Function.update_noteq here] at recorded ⊢
      exact inv.owned other recorded

theorem push (inv : Invariant env rt lists) {domain stack : Nat} {info : StackInfo}
    (live : rt.live stack = true) (found : rt.records stack = some info)
    (pooled : info.cacheBucket ≠ -1) :
    Invariant env (camlFreeStack rt domain stack) (setList lists domain info.cacheBucket.toNat
      (stack :: lists domain info.cacheBucket.toNat)) := by
  obtain ⟨nonneg, small, -⟩ := inv.pooled stack info found pooled
  have filedAs : info.cacheBucket = (info.cacheBucket.toNat : Int) :=
    (Int.toNat_of_nonneg nonneg).symm
  have records : (camlFreeStack rt domain stack).records = Function.update rt.records stack
      (some { info with exceptionPtr := rt.cache domain info.cacheBucket.toNat }) := by
    simp [camlFreeStack, found, pooled, Runtime.cache]
  have lives : (camlFreeStack rt domain stack).live = Function.update rt.live stack false := by
    simp [camlFreeStack, found, pooled]
  have cached : (camlFreeStack rt domain stack).cache = (rt.setCacheHead domain
      info.cacheBucket.toNat (some stack)).cache := by
    simp only [camlFreeStack, found, pooled, if_false]
    exact Runtime.cache_of_domains (by simp [Runtime.setCacheHead, Runtime.cache])
  generalize info.cacheBucket.toNat = bucket at filedAs records cached ⊢
  have apart : ∀ domain bucket other, other ∈ lists domain bucket → other ≠ stack :=
    fun domain bucket other listed same => inv.unlisted_of_live live (same ▸ listed)
  have kept : ∀ domain' bucket' other,
      other ∈ setList lists domain bucket (stack :: lists domain bucket) domain' bucket' →
      (other ∈ lists domain' bucket' ∧ other ≠ stack) ∨
        (other = stack ∧ domain' = domain ∧ bucket' = bucket) := by
    intro domain' bucket' other listed
    simp only [setList] at listed
    split_ifs at listed with here
    · obtain ⟨rfl, rfl⟩ := here
      rcases List.mem_cons.mp listed with rfl | listed
      · exact .inr ⟨rfl, rfl, rfl⟩
      · exact .inl ⟨listed, apart _ _ _ listed⟩
    · exact .inl ⟨listed, apart _ _ _ listed⟩
  refine ⟨fun domain' bucket' => ?_, fun domain' bucket' large => ?_,
    fun domain' bucket' => ?_, fun domain' bucket' domain'' bucket'' other first second => ?_,
    fun domain' bucket' other listed => ?_, fun domain' bucket' other new listed found' => ?_,
    fun other new found' pooled' => ?_, fun other live' => ?_,
    fun _ _ _ _ found' found'' => inv.separate_of_handlers
      (handlers_update found fun _ written => by cases written; rfl) (records ▸ found')
      (records ▸ found''), fun other recorded => ?_,
    fun _ _ found' => inv.addressed_of_handlers
      (handlers_update found fun _ written => by cases written; rfl) _ _ (records ▸ found')⟩
  · rw [cached, records]
    have same : ∀ other ∈ lists domain' bucket', Function.update rt.records stack
        (some { info with exceptionPtr := rt.cache domain bucket }) other = rt.records other :=
      fun other listed => Function.update_noteq (apart _ _ _ listed) _ _
    by_cases here : domain' = domain ∧ bucket' = bucket
    · obtain ⟨rfl, rfl⟩ := here
      simp only [Runtime.cache_setCacheHead, setList, and_self, if_true, Function.update_same]
      exact .link (Function.update_same _ _ _) ((inv.linked domain' bucket').congr same)
    · rw [Runtime.cache_setCacheHead_of_ne here, setList_of_ne here]
      exact (inv.linked domain' bucket').congr same
  · simp only [setList]
    split_ifs with here
    · simp only [numStackSizeClasses] at small large
      omega
    · exact inv.classes _ _ large
  · simp only [setList]
    split_ifs with here
    · obtain ⟨rfl, rfl⟩ := here
      exact List.nodup_cons.mpr ⟨inv.unlisted_of_live live, inv.nodup _ _⟩
    · exact inv.nodup _ _
  · rcases kept _ _ _ first with ⟨first, distinct⟩ | ⟨rfl, rfl, rfl⟩ <;>
      rcases kept _ _ _ second with ⟨second, distinct'⟩ | ⟨same, rfl, rfl⟩
    · exact inv.disjoint _ _ _ _ _ first second
    · exact absurd same distinct
    · exact absurd rfl distinct'
    · exact ⟨rfl, rfl⟩
  · rw [lives]
    rcases kept _ _ _ listed with ⟨listed, distinct⟩ | ⟨rfl, -, -⟩
    · simpa [distinct] using inv.idle _ _ _ listed
    · simp
  · rw [records] at found'
    rcases kept _ _ _ listed with ⟨listed, distinct⟩ | ⟨rfl, -, rfl⟩
    · rw [Function.update_noteq distinct] at found'
      exact inv.filed _ _ _ _ listed found'
    · simp only [Function.update_same, Option.some.injEq] at found'
      rw [← found']
      exact filedAs
  · rw [records] at found'
    by_cases here : other = stack
    · subst here
      simp only [Function.update_same, Option.some.injEq] at found'
      subst found'
      exact inv.pooled other info found pooled'
    · rw [Function.update_noteq here] at found'
      exact inv.pooled other new found' pooled'
  · rw [lives] at live'
    by_cases here : other = stack
    · subst here
      simp at live'
    · rw [Function.update_noteq here] at live'
      rw [records, Function.update_noteq here]
      exact inv.recorded other live'
  · rw [records] at recorded
    rw [lives]
    by_cases here : other = stack
    · subst here
      exact .inr ⟨domain, bucket, by simp [setList]⟩
    · rw [Function.update_noteq here] at recorded ⊢
      refine (inv.owned other recorded).imp_right
        fun ⟨domain', bucket', listed⟩ => ⟨domain', bucket', ?_⟩
      simp only [setList]
      split_ifs with same
      · obtain ⟨rfl, rfl⟩ := same
        exact List.mem_cons_of_mem _ listed
      · exact listed

theorem freeStack (inv : Invariant env rt lists) (domain : Nat) {stack : Nat}
    (live : rt.live stack = true) :
    ∃ lists', Invariant env (camlFreeStack rt domain stack) lists' := by
  obtain ⟨info, found⟩ := Option.ne_none_iff_exists'.mp (inv.recorded stack live)
  by_cases unpooled : info.cacheBucket = -1
  · exact ⟨lists, inv.release live found unpooled⟩
  · exact ⟨_, inv.push live found unpooled⟩

end Invariant

namespace Invariant

variable {env : Env} {rt rt' : Runtime} {lists : Nat → Nat → List Nat}

theorem alloc (inv : Invariant env rt lists) (system : SystemAllocator env rt.records)
    {domain wosize hval hexn heff : Nat} {cacheBucket id : Int} {result : Option Nat}
    (sized : env.Sized wosize cacheBucket)
    (allocated : allocSizeClassStackNoexc env system.allocate rt domain wosize cacheBucket hval
      hexn heff id = (rt', result)) :
    (∃ lists', Invariant env rt' lists') ∧ ∀ stack, result = some stack →
      rt.live stack = false ∧ ∃ info, rt'.records stack = some info ∧
        (env.LengthFits wosize → env.HasRoom stack info wosize) := by
  unfold allocSizeClassStackNoexc at allocated
  split at allocated
  · rename_i stack head
    have pooled : cacheBucket ≠ -1 := by
      rintro rfl
      simp at head
    rw [if_neg pooled] at head
    split at allocated
    · rename_i info found
      cases allocated
      obtain ⟨nonneg, small, wosizeIs⟩ := sized pooled
      have linked := inv.linked domain cacheBucket.toNat
      rw [head] at linked
      obtain ⟨-, rest, -, listed, -⟩ := linked.of_some
      have onList : stack ∈ lists domain cacheBucket.toNat := by
        rw [listed]
        exact List.mem_cons_self _ _
      have filedAs := inv.filed _ _ _ _ onList found
      refine ⟨⟨_, inv.pop head found (by simp [stackLayout, initStack])⟩,
        fun _ returned => ?_⟩
      cases returned
      refine ⟨inv.idle _ _ _ onList, initStack env info hval hexn heff id, by simp,
        fun fits => ?_⟩
      have room := (inv.pooled stack info found (by omega)).2.2
      rw [filedAs, Int.toNat_ofNat, ← wosizeIs] at room
      simpa [Env.HasRoom, Env.stackHigh, initStack] using room fits
    · cases allocated
      exact ⟨⟨lists, inv⟩, fun _ returned => by cases returned⟩
  · split at allocated
    · rename_i block fromBackend
      cases allocated
      obtain ⟨words, fresh, inside⟩ := allocForStack_inside system fromBackend
      have unrecorded : rt.records block.stack = none := by
        cases found : rt.records block.stack with
        | none => rfl
        | some other => exact absurd rfl (fresh.2.2 _ other found).1
      refine ⟨⟨lists, inv.acquire_fresh fresh inside fun pooled => ?_⟩, fun _ returned => ?_⟩
      · obtain ⟨nonneg, small, wosizeIs⟩ := sized pooled
        exact ⟨nonneg, small, fun fits => hasRoom_of_allocForStack system (wosizeIs ▸ fits)
          (wosizeIs ▸ fromBackend) rfl⟩
      · cases returned
        refine ⟨?_, initStack env (block.toStackInfo cacheBucket) hval hexn heff id, by simp,
          fun fits => hasRoom_of_allocForStack system fits fromBackend rfl⟩
        cases live : rt.live block.stack
        · rfl
        · exact absurd unrecorded (inv.recorded _ live)
    · cases allocated
      exact ⟨⟨lists, inv⟩, fun _ returned => by cases returned⟩

end Invariant

theorem freeCachedStacks_eq :
    ∀ {fuel : Nat} {rt : Runtime} {head : Option Nat} {list : List Nat},
      FreeList rt.records head list → list.Nodup → freeCachedStacks fuel rt head =
        if list.length < fuel then some (rt.withoutStacks list, list) else none
  | 0, _, _, _, _, _ => rfl
  | fuel + 1, rt, head, list, linked, nodup => by
      cases linked with
      | null => simp [freeCachedStacks, Runtime.withoutStacks]
      | @link stack info rest found next =>
          have fresh := (List.nodup_cons.mp nodup).1
          have next' : FreeList (freeStackMemory rt stack).records info.exceptionPtr rest :=
            next.congr fun other listed => Function.update_noteq
              (by rintro rfl; exact fresh listed) _ _
          simp only [freeCachedStacks, found, @freeCachedStacks_eq fuel _ _ _ next'
            (List.nodup_cons.mp nodup).2, List.length_cons, Nat.add_lt_add_iff_right]
          split
          · simp only [Option.map_some', Option.some.injEq, Prod.mk.injEq, and_true]
            simp only [Runtime.withoutStacks, freeStackMemory, Runtime.mk.injEq, and_true]
            funext other
            by_cases here : other = stack
            · subst here
              simp
            · simp [here]
          · rfl

theorem foldlM_freeCachedBucket {fuel domain : Nat} {heads : Nat → Option Nat}
    {lists : Nat → Nat → List Nat} :
    ∀ (buckets : List Nat) (rt : Runtime) (done : List Nat),
      (∀ bucket ∈ buckets, FreeList rt.records (heads bucket) (lists domain bucket)) →
      (buckets.flatMap (lists domain)).Nodup →
      buckets.foldlM (freeCachedBucket fuel heads) (rt, done) =
        if ∀ bucket ∈ buckets, (lists domain bucket).length < fuel then
          some (rt.withoutStacks (buckets.flatMap (lists domain)),
            done ++ buckets.flatMap (lists domain))
        else none
  | [], rt, done, _, _ => by simp [Runtime.withoutStacks]
  | bucket :: buckets, rt, done, linked, nodup => by
      rw [List.flatMap_cons] at nodup
      have apart := List.disjoint_of_nodup_append nodup
      have rest := @foldlM_freeCachedBucket fuel domain heads lists buckets
        (rt.withoutStacks (lists domain bucket))
        (done ++ lists domain bucket)
        (fun other listed => (linked other (List.mem_cons_of_mem _ listed)).congr
          fun stack onList => by
            have : stack ∉ lists domain bucket := fun first =>
              apart first (List.mem_flatMap.mpr ⟨other, listed, onList⟩)
            simp [Runtime.withoutStacks, this])
        (List.nodup_append.mp nodup).2.1
      simp only [List.foldlM_cons, freeCachedBucket,
        freeCachedStacks_eq (linked bucket (List.mem_cons_self _ _))
          (List.nodup_append.mp nodup).1, List.forall_mem_cons]
      by_cases first : (lists domain bucket).length < fuel
      · simp only [first, if_true, Option.map_some', Option.bind_eq_bind, Option.some_bind, rest,
          true_and]
        split
        · simp only [List.flatMap_cons, List.append_assoc, Option.some.injEq, Prod.mk.injEq,
            and_true]
          simp only [Runtime.withoutStacks, Runtime.mk.injEq, and_true]
          funext stack
          by_cases onFirst : stack ∈ lists domain bucket <;> simp [onFirst]
        · rfl
      · simp [first]

/-- The stacks a domain's cache holds, class by class. -/
def cachedIn (lists : Nat → Nat → List Nat) (domain : Nat) : List Nat :=
  (List.range numStackSizeClasses).flatMap (lists domain)

namespace Frame

theorem of_eq {rt rt' : Runtime} (records : rt'.records = rt.records) (live : rt'.live = rt.live)
    (domains : rt'.domains = rt.domains) : Frame rt rt' :=
  ⟨fun _ => by rw [records], fun _ _ => by rw [records], live, Runtime.cache_of_domains domains⟩

theorem moveStack {env : Env} {rt : Runtime} {oldStack newStack : Nat} {old new : StackInfo}
    {stackUsed : Int} (distinct : newStack ≠ oldStack) (oldLive : rt.live oldStack = true)
    (newLive : rt.live newStack = true) (oldFound : rt.records oldStack = some old)
    (newFound : rt.records newStack = some new) :
    Frame rt (FiberRuntime.moveStack env rt oldStack old newStack new stackUsed) :=
  ((@setStack rt newStack new (movedRecord env oldStack old new stackUsed) newLive newFound
    rfl).trans (@setStack _ oldStack old (detachedRecord old) oldLive
      (by simp [Function.update_noteq distinct.symm, oldFound]) rfl)).trans (of_eq rfl rfl rfl)

end Frame

namespace Invariant

variable {env : Env} {rt rt' : Runtime} {lists : Nat → Nat → List Nat}

theorem cachedIn_nodup (inv : Invariant env rt lists) (domain : Nat) :
    (cachedIn lists domain).Nodup :=
  List.nodup_flatMap.mpr ⟨fun bucket _ => inv.nodup domain bucket,
    (List.nodup_range _).pairwise_of_forall_ne fun bucket _ bucket' _ distinct stack first second =>
      distinct (inv.disjoint domain bucket domain bucket' stack first second).2⟩

theorem mem_cachedIn (inv : Invariant env rt lists) {domain stack : Nat} :
    stack ∈ cachedIn lists domain ↔ ∃ bucket, stack ∈ lists domain bucket := by
  unfold cachedIn
  rw [List.mem_flatMap]
  constructor
  · rintro ⟨bucket, -, listed⟩
    exact ⟨bucket, listed⟩
  · rintro ⟨bucket, listed⟩
    refine ⟨bucket, List.mem_range.mpr (Nat.lt_of_not_le fun large => ?_), listed⟩
    rw [inv.classes _ _ large] at listed
    cases listed

theorem freeStackCache_eq (inv : Invariant env rt lists) (domain fuel : Nat) :
    camlFreeStackCache fuel rt domain =
      if ∀ bucket ∈ List.range numStackSizeClasses, (lists domain bucket).length < fuel then
        some ((rt.withoutStacks (cachedIn lists domain)).updateDomain domain
          (fun dom => { dom with stackCache := none }), cachedIn lists domain)
      else none := by
  unfold camlFreeStackCache
  rw [foldlM_freeCachedBucket _ _ _ (fun bucket _ => inv.linked domain bucket)
    (inv.cachedIn_nodup domain)]
  split <;> rfl

theorem freeStackCache (inv : Invariant env rt lists) {domain fuel : Nat} {rt' : Runtime}
    {released : List Nat} (ran : camlFreeStackCache fuel rt domain = some (rt', released)) :
    Invariant env rt' fun domain' bucket => if domain' = domain then [] else lists domain' bucket := by
  rw [inv.freeStackCache_eq domain fuel] at ran
  split at ran
  swap
  · cases ran
  cases ran
  have elsewhere : ∀ domain' bucket stack, domain' ≠ domain → stack ∈ lists domain' bucket →
      stack ∉ cachedIn lists domain := by
    intro domain' bucket stack distinct listed cached
    obtain ⟨bucket', -, listed'⟩ := List.mem_flatMap.mp cached
    exact distinct (inv.disjoint _ _ _ _ _ listed listed').1
  have unlive : ∀ stack, rt.live stack = true → stack ∉ cachedIn lists domain := by
    intro stack live cached
    obtain ⟨bucket, -, listed⟩ := List.mem_flatMap.mp cached
    simp [inv.idle _ _ _ listed] at live
  refine ⟨fun domain' bucket => ?_, fun domain' bucket large => ?_, fun domain' bucket => ?_,
    fun domain' bucket domain'' bucket' stack first second => ?_,
    fun domain' bucket stack listed => ?_, fun domain' bucket stack info listed found => ?_,
    fun stack info found pooled => ?_, fun stack live => ?_,
    fun stack info stack' info' found found' distinct => ?_, fun stack recorded => ?_,
    fun stack info found => ?_⟩
  · by_cases here : domain' = domain
    · subst here
      simp only [if_true]
      have : ((rt.withoutStacks (cachedIn lists domain')).updateDomain domain'
          (fun dom => { dom with stackCache := none })).cache domain' bucket = none := by
        simp [Runtime.cache]
      rw [this]
      exact .null
    · simp only [here, if_false]
      have cached : ((rt.withoutStacks (cachedIn lists domain)).updateDomain domain
          (fun dom => { dom with stackCache := none })).cache domain' = rt.cache domain' := by
        simp [Runtime.cache, Runtime.withoutStacks, here]
      rw [cached]
      exact (inv.linked domain' bucket).congr fun stack listed => by
        simp [Runtime.withoutStacks, elsewhere _ _ _ here listed]
  · split
    · rfl
    · exact inv.classes _ _ large
  · split
    · exact List.nodup_nil
    · exact inv.nodup _ _
  · split at first <;> split at second
    · cases first
    · cases first
    · cases second
    · exact inv.disjoint _ _ _ _ _ first second
  · split at listed
    · cases listed
    · exact inv.idle _ _ _ listed
  · split at listed
    · cases listed
    · rename_i distinct
      simp only [Runtime.updateDomain_records, Runtime.withoutStacks, elsewhere _ _ _ distinct listed,
        if_false] at found
      exact inv.filed _ _ _ _ listed found
  · simp only [Runtime.updateDomain_records, Runtime.withoutStacks] at found
    split at found
    · cases found
    · exact inv.pooled _ _ found pooled
  · simp only [Runtime.updateDomain_live, Runtime.withoutStacks] at live
    simpa [Runtime.withoutStacks, unlive _ live] using inv.recorded stack live
  · simp only [Runtime.updateDomain_records, Runtime.withoutStacks] at found found'
    split at found
    · cases found
    · split at found'
      · cases found'
      · exact inv.separate _ _ _ _ found found' distinct
  · simp only [Runtime.updateDomain_records, Runtime.updateDomain_live, Runtime.withoutStacks]
      at recorded ⊢
    split at recorded
    · exact absurd rfl recorded
    · rename_i uncached
      refine (inv.owned stack recorded).imp_right
        fun ⟨domain', bucket, listed⟩ => ⟨domain', bucket, ?_⟩
      split
      · rename_i here
        subst here
        exact absurd (inv.mem_cachedIn.mpr ⟨bucket, listed⟩) uncached
      · exact listed
  · simp only [Runtime.updateDomain_records, Runtime.withoutStacks] at found
    split at found
    · cases found
    · exact inv.addressed _ _ found

theorem allocStack (inv : Invariant env rt lists) (system : SystemAllocator env rt.records)
    {domain hval hexn heff : Nat} :
    ∃ lists', Invariant env (camlAllocStack env system.allocate rt domain hval hexn heff).1 lists' := by
  have framed : Invariant env { rt with fiberId := rt.fiberId + 1 } lists :=
    inv.frame (Frame.of_eq rfl rfl rfl)
  unfold camlAllocStack
  dsimp only
  split
  · rename_i allocated
    exact (framed.alloc system (fiberWsz_sized env) allocated).1
  · rename_i rt'' stack allocated
    obtain ⟨⟨lists', inv'⟩, -⟩ := framed.alloc system (fiberWsz_sized env) allocated
    obtain ⟨info, records, lives, -⟩ := allocSizeClassStackNoexc_of_some allocated
    split
    · exact ⟨lists', inv'⟩
    · split
      · rename_i info' found
        exact ⟨lists', inv'.frame ((@Frame.setStack rt'' stack info'
          { info' with sp := env.stackHigh info' - 1 } (by simp [lives]) found rfl).trans
          (Frame.of_eq rfl rfl rfl))⟩
      · exact ⟨lists', inv'⟩

theorem tryReallocStack (inv : Invariant env rt lists) (system : SystemAllocator env rt.records)
    {fuel domain requiredSpace : Nat} {grown : Bool}
    (live : rt.live (rt.domains domain).currentStack = true)
    (ran : camlTryReallocStack env system.allocate fuel rt domain requiredSpace = some (rt', grown)) :
    ∃ lists', Invariant env rt' lists' := by
  cases grown
  · exact ⟨lists, camlTryReallocStack_of_refused ran ▸ inv⟩
  obtain ⟨old, wsize, allocated, newStack, new, rewritten, -, current, -, allocation, stored,
    rewrote, rfl⟩ := camlTryReallocStack_of_grown ran
  obtain ⟨⟨lists₁, inv₁⟩, returned⟩ := inv.alloc system (stackCacheBucket_sized env wsize) allocation
  obtain ⟨wasDead, -⟩ := returned newStack rfl
  obtain ⟨info, records, lives, -⟩ := allocSizeClassStackNoexc_of_some allocation
  have distinct : newStack ≠ (rt.domains domain).currentStack := by
    rintro same
    rw [same, live] at wasDead
    cases wasDead
  have oldLive : allocated.live (rt.domains domain).currentStack = true := by
    simp [lives, Function.update_noteq distinct.symm, live]
  have moved := inv₁.frame (@Frame.moveStack env allocated _ newStack old new (stackUsed env old)
    distinct oldLive (by simp [lives]) (by simp [records, Function.update_noteq distinct.symm, current])
    stored)
  have installed : Invariant env
      { (moveStack env allocated (rt.domains domain).currentStack old newStack new
          (stackUsed env old)).updateDomain domain (fun _ => rewritten.1) with
        mem := rewritten.2 } lists₁ :=
    moved.frame ((@Frame.updateDomain _ domain (fun _ => rewritten.1)
      (rewritePointers_domain rewrote).2.1).trans (Frame.of_eq rfl rfl rfl))
  obtain ⟨lists₂, freed⟩ := installed.freeStack domain oldLive
  exact ⟨lists₂, freed.frame
    (@Frame.updateDomain _ domain (fun dom => { dom with currentStack := newStack }) rfl)⟩

theorem allocStackCache (inv : Invariant env rt lists) {domain : Nat} (allocated : Bool)
    (uncached : (rt.domains domain).stackCache = none) :
    Invariant env (camlAllocStackCache rt domain allocated) lists := by
  refine inv.frame ⟨fun _ => rfl, fun _ _ => rfl, rfl, ?_⟩
  funext domain' bucket
  by_cases here : domain' = domain
  · subst here
    cases allocated <;> simp [camlAllocStackCache, Runtime.cache, uncached]
  · simp [camlAllocStackCache, Runtime.cache, here]

theorem dropContinuation (inv : Invariant env rt lists) {domain cont : Nat}
    (live : ∀ stack, rt.conts cont = some stack → rt.live stack = true) :
    ∃ lists', Invariant env (camlDropContinuation rt domain cont).1 lists' := by
  unfold camlDropContinuation
  split
  · exact ⟨lists, inv⟩
  · rename_i stack taken
    have taken' : Invariant env { rt with conts := Function.update rt.conts cont none } lists :=
      inv.frame (Frame.of_eq rfl rfl rfl)
    exact taken'.freeStack domain (live stack taken)

end Invariant

/-- One call the runtime makes into the stack store, on some domain, with the backend answering
as `system` says; each call is made only where `fiber.c` asserts it may be. -/
inductive Step (env : Env) : Runtime → Runtime → Prop
  /-- `caml_alloc_stack_cache`, when a domain starts. -/
  | allocStackCache {rt : Runtime} {domain : Nat} (allocated : Bool)
      (uncached : (rt.domains domain).stackCache = none) :
      Step env rt (camlAllocStackCache rt domain allocated)
  /-- `caml_alloc_stack_noexc`. -/
  | allocStackNoexc {rt : Runtime} (system : SystemAllocator env rt.records) {domain : Nat}
      (wosize hval hexn heff : Nat) (id : Int) (cached : (rt.domains domain).stackCache ≠ none) :
      Step env rt (camlAllocStackNoexc env system.allocate rt domain wosize hval hexn heff id).1
  /-- `caml_alloc_stack`. -/
  | allocStack {rt : Runtime} (system : SystemAllocator env rt.records) {domain : Nat}
      (hval hexn heff : Nat) (cached : (rt.domains domain).stackCache ≠ none) :
      Step env rt (camlAllocStack env system.allocate rt domain hval hexn heff).1
  /-- `caml_alloc_main_stack`. -/
  | allocMainStack {rt : Runtime} (system : SystemAllocator env rt.records) {domain : Nat}
      (initWsize : Nat) (cached : (rt.domains domain).stackCache ≠ none) :
      Step env rt (camlAllocMainStack env system.allocate rt domain initWsize).1
  /-- `caml_try_realloc_stack`, on the domain's live current stack. -/
  | tryReallocStack {rt rt' : Runtime} (system : SystemAllocator env rt.records)
      {fuel domain requiredSpace : Nat} {grown : Bool}
      (cached : (rt.domains domain).stackCache ≠ none)
      (live : rt.live (rt.domains domain).currentStack = true)
      (ran : camlTryReallocStack env system.allocate fuel rt domain requiredSpace =
        some (rt', grown)) : Step env rt rt'
  /-- `caml_free_stack`, on a live stack. -/
  | freeStack {rt : Runtime} {domain stack : Nat} (cached : (rt.domains domain).stackCache ≠ none)
      (live : rt.live stack = true) : Step env rt (camlFreeStack rt domain stack)
  /-- `caml_drop_continuation`, whose chain, if any, is live. -/
  | dropContinuation {rt : Runtime} {domain cont : Nat}
      (cached : (rt.domains domain).stackCache ≠ none)
      (live : ∀ stack, rt.conts cont = some stack → rt.live stack = true) :
      Step env rt (camlDropContinuation rt domain cont).1
  /-- `caml_continuation_replace`, into an empty slot. -/
  | continuationReplace {rt : Runtime} {cont stack : Nat} (empty : rt.conts cont = none) :
      Step env rt (camlContinuationReplace rt cont stack)
  /-- `caml_free_stack_cache`, when a domain terminates. -/
  | freeStackCache {rt rt' : Runtime} {domain fuel : Nat} {released : List Nat}
      (cached : (rt.domains domain).stackCache ≠ none)
      (ran : camlFreeStackCache fuel rt domain = some (rt', released)) : Step env rt rt'
  /-- The code around the store runs: OCaml code, the rest of the runtime and the stack switches
  of effect handlers write memory, `Caml_state` and the fields of live stacks, but keep every
  stack's layout, free no stack and touch no free list. -/
  | mutator {rt rt' : Runtime} (frame : Frame rt rt') : Step env rt rt'

/-- The store before any domain starts: no stacks, no caches, no continuations. -/
def initialRuntime (maxStackWsize : Nat) : Runtime where
  records _ := none
  mem _ := 0
  domains _ := ⟨0, 0, 0, [], none, none⟩
  maxStackWsize := maxStackWsize
  fiberId := 0
  conts _ := none
  live _ := false
  freedArenas := []

/-- The states of the store from its start, under any sequence of steps on any domains. -/
inductive Reachable (env : Env) : Runtime → Prop
  /-- The store before any domain starts. -/
  | initial (maxStackWsize : Nat) : Reachable env (initialRuntime maxStackWsize)
  /-- One more step. -/
  | step {rt rt' : Runtime} : Reachable env rt → Step env rt rt' → Reachable env rt'

theorem invariant_initialRuntime (env : Env) (maxStackWsize : Nat) :
    Invariant env (initialRuntime maxStackWsize) fun _ _ => [] where
  linked _ _ := .null
  classes _ _ _ := rfl
  nodup _ _ := List.nodup_nil
  disjoint _ _ _ _ _ listed := by cases listed
  idle _ _ _ listed := by cases listed
  filed _ _ _ _ listed := by cases listed
  pooled _ _ found := by cases found
  recorded _ live := by cases live
  separate _ _ _ _ found := by cases found
  owned _ recorded := absurd rfl recorded
  addressed _ _ found := by cases found

/-- Every step keeps the invariant. -/
theorem Step.invariant {env : Env} {rt rt' : Runtime} {lists : Nat → Nat → List Nat}
    (step : Step env rt rt') (inv : Invariant env rt lists) : ∃ lists', Invariant env rt' lists' := by
  cases step with
  | allocStackCache allocated uncached => exact ⟨lists, inv.allocStackCache allocated uncached⟩
  | allocStackNoexc system wosize hval hexn heff id _ =>
      exact (inv.alloc system (stackCacheBucket_sized env wosize) rfl).1
  | allocStack system hval hexn heff _ => exact inv.allocStack system
  | allocMainStack system initWsize _ =>
      have counted : Invariant env { rt with fiberId := rt.fiberId + 1 } lists :=
        inv.frame (Frame.of_eq rfl rfl rfl)
      exact (counted.alloc system (stackCacheBucket_sized env initWsize) rfl).1
  | tryReallocStack system _ live ran => exact inv.tryReallocStack system live ran
  | freeStack _ live => exact inv.freeStack _ live
  | dropContinuation _ live => exact inv.dropContinuation live
  | continuationReplace _ => exact ⟨lists, inv.frame (Frame.of_eq rfl rfl rfl)⟩
  | freeStackCache _ ran => exact ⟨_, inv.freeStackCache ran⟩
  | mutator frame => exact ⟨lists, inv.frame frame⟩

/-- Every reachable state of the store satisfies the invariant. -/
theorem Reachable.invariant {env : Env} {rt : Runtime} (reachable : Reachable env rt) :
    ∃ lists, Invariant env rt lists := by
  induction reachable with
  | initial maxStackWsize => exact ⟨_, invariant_initialRuntime env maxStackWsize⟩
  | step _ step ih =>
      obtain ⟨lists, inv⟩ := ih
      exact step.invariant inv

/-! ## What the invariant gives -/

theorem stackCacheBucket_eq_iff {env : Env} (positive : 0 < env.fiberWsz)
    (representable : env.fiberWsz * 2 ^ 4 < wordModulus) (wosize bucket : Nat) :
    stackCacheBucket env wosize = bucket ↔
      bucket < numStackSizeClasses ∧ wosize = env.fiberWsz * 2 ^ bucket := by
  have noWrap : ∀ i, i < numStackSizeClasses →
      env.fiberWsz * 2 ^ i % wordModulus = env.fiberWsz * 2 ^ i := fun i below =>
    Nat.mod_eq_of_lt (Nat.lt_of_le_of_lt (Nat.mul_le_mul_left _
      (Nat.pow_le_pow_right (by decide) (by simp only [numStackSizeClasses] at below; omega)))
      representable)
  unfold stackCacheBucket
  constructor
  · intro found
    rcases @stackCacheBucketFrom_eq wosize numStackSizeClasses 0 env.fiberWsz env.fiberWsz_lt with
      none | ⟨j, below, found', sized⟩
    · rw [none] at found
      omega
    · rw [found'] at found
      obtain rfl : bucket = j := by omega
      exact ⟨below, by rw [sized, noWrap _ below]⟩
  · rintro ⟨below, rfl⟩
    rw [@stackCacheBucketFrom_of_first _ bucket numStackSizeClasses 0 env.fiberWsz env.fiberWsz_lt
      below (fun i earlier same => ?_) (noWrap _ below).symm, Nat.zero_add]
    rw [noWrap i (by omega)] at same
    have smaller := Nat.mul_lt_mul_of_pos_left (Nat.pow_lt_pow_right (by decide : 1 < 2) earlier)
      positive
    omega

theorem stackCacheBucket_fiberWsz (env : Env) : stackCacheBucket env env.fiberWsz = 0 := by
  simp [stackCacheBucket, stackCacheBucketFrom, numStackSizeClasses]

namespace Invariant

variable {env : Env} {rt : Runtime} {lists : Nat → Nat → List Nat}

theorem listed_room (inv : Invariant env rt lists) {domain bucket stack : Nat}
    (listed : stack ∈ lists domain bucket) (fits : env.LengthFits (env.classSize bucket)) :
    ∃ info, rt.records stack = some info ∧ info.cacheBucket = bucket ∧
      env.HasRoom stack info (env.classSize bucket) := by
  obtain ⟨info, found⟩ := (inv.linked domain bucket).recorded listed
  have filed := inv.filed _ _ _ _ listed found
  have room := (inv.pooled stack info found (by omega)).2.2
  rw [filed, Int.toNat_ofNat] at room
  exact ⟨info, found, filed, room fits⟩

theorem allocStack_returns (inv : Invariant env rt lists) (system : SystemAllocator env rt.records)
    {domain hval hexn heff stack : Nat}
    (returned : (camlAllocStack env system.allocate rt domain hval hexn heff).2 = .ok stack) :
    rt.live stack = false ∧ ∃ info,
      (camlAllocStack env system.allocate rt domain hval hexn heff).1.records stack = some info ∧
        (env.LengthFits env.fiberWsz → env.HasRoom stack info env.fiberWsz) := by
  have counted : Invariant env { rt with fiberId := rt.fiberId + 1 } lists :=
    inv.frame (Frame.of_eq rfl rfl rfl)
  unfold camlAllocStack at returned ⊢
  dsimp only at returned ⊢
  split at returned
  · cases returned
  · rename_i allocated' result allocated
    obtain ⟨dead, info, found, room⟩ := (counted.alloc system (fiberWsz_sized env) allocated).2 _ rfl
    by_cases native : env.nativeCode = true
    · simp only [native, if_true, Except.ok.injEq] at returned ⊢
      subst returned
      exact ⟨dead, info, found, room⟩
    · simp only [native, Bool.false_eq_true, if_false] at returned ⊢
      rw [found] at returned ⊢
      simp only [Except.ok.injEq] at returned
      subst returned
      refine ⟨dead, { info with sp := env.stackHigh info - 1 }, by simp, fun fits => ?_⟩
      simpa [Env.HasRoom, Env.stackHigh] using room fits

theorem allocMainStack_returns (inv : Invariant env rt lists)
    (system : SystemAllocator env rt.records) {domain initWsize stack : Nat}
    (returned : (camlAllocMainStack env system.allocate rt domain initWsize).2 = some stack) :
    rt.live stack = false ∧ ∃ info,
      (camlAllocMainStack env system.allocate rt domain initWsize).1.records stack = some info ∧
        (env.LengthFits initWsize → env.HasRoom stack info initWsize) := by
  have counted : Invariant env { rt with fiberId := rt.fiberId + 1 } lists :=
    inv.frame (Frame.of_eq rfl rfl rfl)
  exact (counted.alloc system (stackCacheBucket_sized env initWsize) rfl).2 stack returned

theorem freeStackCache_releases (inv : Invariant env rt lists) (domain : Nat) :
    ∃ fuel rt', camlFreeStackCache fuel rt domain = some (rt', cachedIn lists domain) ∧
      ∀ stack ∈ cachedIn lists domain, rt'.records stack = none := by
  refine ⟨(cachedIn lists domain).length + 1, (rt.withoutStacks (cachedIn lists domain)).updateDomain
    domain (fun dom => { dom with stackCache := none }), ?_, fun stack cached => ?_⟩
  · rw [inv.freeStackCache_eq, if_pos]
    intro bucket below
    have shorter : (lists domain bucket).length ≤ (cachedIn lists domain).length := by
      exact (List.sublist_flatten_of_mem (List.mem_map_of_mem (lists domain) below)).length_le
    omega
  · simp [Runtime.withoutStacks, cached]

end Invariant

/-- The stack store of every reachable state, when `caml_fiber_wsz` is positive and the byte
length of its largest class fits in a word. -/
theorem stack_cache_invariant {env : Env} {rt : Runtime} (positive : 0 < env.fiberWsz)
    (fits : env.LengthFits (env.fiberWsz * 2 ^ 4)) (reachable : Reachable env rt) :
    ∃ lists : Nat → Nat → List Nat,
      (∀ domain bucket, FreeList rt.records (rt.cache domain bucket) (lists domain bucket) ∧
        (lists domain bucket).Nodup ∧ (numStackSizeClasses ≤ bucket → lists domain bucket = [])) ∧
      (∀ domain bucket domain' bucket' stack, stack ∈ lists domain bucket →
        stack ∈ lists domain' bucket' → domain = domain' ∧ bucket = bucket') ∧
      (∀ domain bucket stack, stack ∈ lists domain bucket → rt.live stack = false ∧
        ∃ info, rt.records stack = some info ∧ info.cacheBucket = bucket ∧
          env.HasRoom stack info (env.fiberWsz * 2 ^ bucket)) ∧
      (∀ wosize bucket : Nat, stackCacheBucket env wosize = bucket ↔
        bucket < numStackSizeClasses ∧ wosize = env.fiberWsz * 2 ^ bucket) ∧
      (∀ (system : SystemAllocator env rt.records) domain wosize hval hexn heff id stack,
        (camlAllocStackNoexc env system.allocate rt domain wosize hval hexn heff id).2 =
          some stack → rt.live stack = false ∧ ∃ info,
            (camlAllocStackNoexc env system.allocate rt domain wosize hval hexn heff id).1.records
              stack = some info ∧ (env.LengthFits wosize → env.HasRoom stack info wosize)) ∧
      (∀ (system : SystemAllocator env rt.records) domain hval hexn heff stack,
        (camlAllocStack env system.allocate rt domain hval hexn heff).2 = .ok stack →
          rt.live stack = false ∧ ∃ info,
            (camlAllocStack env system.allocate rt domain hval hexn heff).1.records stack = some info ∧
              env.HasRoom stack info env.fiberWsz) ∧
      (∀ (system : SystemAllocator env rt.records) domain initWsize stack,
        (camlAllocMainStack env system.allocate rt domain initWsize).2 = some stack →
          rt.live stack = false ∧ ∃ info,
            (camlAllocMainStack env system.allocate rt domain initWsize).1.records stack = some info ∧
              (env.LengthFits initWsize → env.HasRoom stack info initWsize)) ∧
      stackCacheBucket env env.fiberWsz = 0 ∧
      (∀ domain wosize stack info, stackCacheBucket env wosize ≠ -1 →
        rt.cache domain (stackCacheBucket env wosize).toNat = some stack →
          rt.records stack = some info → info.cacheBucket = stackCacheBucket env wosize) ∧
      (∀ domain, ∃ fuel rt', camlFreeStackCache fuel rt domain = some (rt', cachedIn lists domain) ∧
        (cachedIn lists domain).Nodup ∧
        (∀ stack, stack ∈ cachedIn lists domain ↔ ∃ bucket, stack ∈ lists domain bucket) ∧
        ∀ stack ∈ cachedIn lists domain, rt'.records stack = none) := by
  obtain ⟨lists, inv⟩ := reachable.invariant
  have representable : env.fiberWsz * 2 ^ 4 < wordModulus := by
    unfold Env.LengthFits at fits
    split at fits <;> omega
  have classFits : ∀ bucket, bucket < numStackSizeClasses →
      env.classSize bucket = env.fiberWsz * 2 ^ bucket ∧ env.LengthFits (env.classSize bucket) := by
    intro bucket below
    have smaller : env.fiberWsz * 2 ^ bucket ≤ env.fiberWsz * 2 ^ 4 :=
      Nat.mul_le_mul_left _ (Nat.pow_le_pow_right (by decide)
        (by simp only [numStackSizeClasses] at below; omega))
    have exact : env.classSize bucket = env.fiberWsz * 2 ^ bucket :=
      Nat.mod_eq_of_lt (Nat.lt_of_le_of_lt smaller representable)
    exact ⟨exact, exact ▸ fits.mono smaller⟩
  refine ⟨lists, fun domain bucket => ⟨inv.linked domain bucket, inv.nodup domain bucket,
      inv.classes domain bucket⟩, inv.disjoint, fun domain bucket stack listed => ?_,
    stackCacheBucket_eq_iff positive representable,
    fun system domain wosize hval hexn heff id stack returned =>
      (inv.alloc system (stackCacheBucket_sized env wosize) rfl).2 stack returned,
    fun system domain hval hexn heff stack returned => ?_,
    fun system domain initWsize stack returned => inv.allocMainStack_returns system returned,
    stackCacheBucket_fiberWsz env, fun domain wosize stack info pooled head found => ?_,
    fun domain => ?_⟩
  · have below : bucket < numStackSizeClasses := Nat.lt_of_not_le fun large => by
      rw [inv.classes _ _ large] at listed
      cases listed
    obtain ⟨exact, classFit⟩ := classFits bucket below
    obtain ⟨info, found, filed, room⟩ := inv.listed_room listed classFit
    exact ⟨inv.idle _ _ _ listed, info, found, filed, exact ▸ room⟩
  · obtain ⟨dead, info, found, room⟩ := inv.allocStack_returns system returned
    refine ⟨dead, info, found, room ?_⟩
    have fiberFits := (classFits 0 (by decide)).2
    simpa [Env.classSize, Nat.mod_eq_of_lt env.fiberWsz_lt] using fiberFits
  · have linked := inv.linked domain (stackCacheBucket env wosize).toNat
    rw [head] at linked
    obtain ⟨-, rest, -, listed, -⟩ := linked.of_some
    have filed := inv.filed _ _ _ info (by rw [listed]; exact List.mem_cons_self _ _) found
    rw [filed]
    exact Int.toNat_of_nonneg ((stackCacheBucket_sized env wosize pooled).1)
  · obtain ⟨fuel, rt', ran, released⟩ := inv.freeStackCache_releases domain
    exact ⟨fuel, rt', ran, inv.cachedIn_nodup domain, fun stack => inv.mem_cachedIn, released⟩

/-! ## A run of the store -/

/-- `placeAt` answers as a system allocator of the plain backend in a store whose stacks all lie
below `start`. -/
def placeAtAbove (env : Env) (start : Nat) (records : Stacks) (low : stackHandlerWords < start)
    (below : ∀ stack info, records stack = some info → stack < start ∧ info.extentEnd ≤ start)
    (plain : env.backend = .plain) : SystemAllocator env records where
  allocate := placeAt start
  fresh len start' placed := by
    unfold placeAt at placed
    split at placed
    · cases placed
      exact ⟨low, by omega, fun stack info found =>
        ⟨Nat.ne_of_lt (below stack info found).1, .inr (below stack info found).2⟩⟩
    · cases placed
  mappedAligned _ _ _ notPlain := absurd plain notPlain

/-- From the start, domain `0` gets a cache, allocates a stack of `wosize` words, which the
backend places at `4096`, and frees it. -/
def allocThenFree (env : Env) (wosize : Nat) : Runtime :=
  camlFreeStack (camlAllocStackNoexc env (placeAt 4096)
    (camlAllocStackCache (initialRuntime 1024) 0 true) 0 wosize 0 0 0 0).1 0 4096

theorem allocThenFree_reachable {env : Env} (plain : env.backend = .plain) {wosize : Nat}
    (placed : (camlAllocStackNoexc env (placeAt 4096)
      (camlAllocStackCache (initialRuntime 1024) 0 true) 0 wosize 0 0 0 0).1.live 4096 = true) :
    Reachable env (allocThenFree env wosize) :=
  .step (.step (.step (.initial 1024) (.allocStackCache true rfl))
    (.allocStackNoexc (placeAtAbove env 4096 _ (by decide) (fun _ _ found => by cases found) plain)
      wosize 0 0 0 0
      (by simp [camlAllocStackCache, initialRuntime])))
    (.freeStack (by
      unfold camlAllocStackNoexc allocSizeClassStackNoexc
      simp only [camlAllocStackCache, initialRuntime, Runtime.cache]
      split <;> split <;> simp [Runtime.updateDomain, Runtime.setCacheHead]) placed)

/-- With `caml_fiber_wsz = 64`, a fiber stack allocated and freed is cached with room for its
class. -/
theorem freed_fiber_stack_cached :
    0 < (samplePlatform .plain true 64).fiberWsz ∧
      (samplePlatform .plain true 64).LengthFits ((samplePlatform .plain true 64).fiberWsz * 2 ^ 4) ∧
      Reachable (samplePlatform .plain true 64) (allocThenFree (samplePlatform .plain true 64) 64) ∧
      ∃ lists : Nat → Nat → List Nat, ∀ domain bucket stack, stack ∈ lists domain bucket →
        ∃ info, (allocThenFree (samplePlatform .plain true 64) 64).records stack = some info ∧
          (samplePlatform .plain true 64).HasRoom stack info (64 * 2 ^ bucket) := by
  have reachable := @allocThenFree_reachable (samplePlatform .plain true 64) rfl 64
    (by decide)
  have fits : (samplePlatform .plain true 64).LengthFits
      ((samplePlatform .plain true 64).fiberWsz * 2 ^ 4) := by
    simp [Env.LengthFits, samplePlatform, stackHandlerWords, wordModulus]
  obtain ⟨lists, -, -, listed, -⟩ := stack_cache_invariant (by decide) fits reachable
  refine ⟨by decide, fits, reachable, lists, fun domain bucket stack onList => ?_⟩
  obtain ⟨-, info, found, -, room⟩ := listed domain bucket stack onList
  exact ⟨info, found, room⟩

/-- With `caml_fiber_wsz = 2^59`, whose largest class is representable, the byte length of the
third class wraps: the stack allocated for it, once freed, sits on list `2` with no room. -/
theorem wrapped_class_cached_without_room :
    0 < (samplePlatform .plain true (2 ^ 59)).fiberWsz ∧
      (samplePlatform .plain true (2 ^ 59)).fiberWsz * 2 ^ 4 < wordModulus ∧
      Reachable (samplePlatform .plain true (2 ^ 59))
        (allocThenFree (samplePlatform .plain true (2 ^ 59)) (2 ^ 61)) ∧
      (allocThenFree (samplePlatform .plain true (2 ^ 59)) (2 ^ 61)).cache 0 2 = some 4096 ∧
      ∃ info, (allocThenFree (samplePlatform .plain true (2 ^ 59)) (2 ^ 61)).records 4096 = some info ∧
        info.cacheBucket = 2 ∧ ¬(samplePlatform .plain true (2 ^ 59)).HasRoom 4096 info
          ((samplePlatform .plain true (2 ^ 59)).fiberWsz * 2 ^ 2) :=
  ⟨by decide, by decide, allocThenFree_reachable rfl (by decide), by decide, _, rfl, rfl, by
    unfold Env.HasRoom
    decide⟩

/-- Across every run of the stack store, on any number of domains, memory is never handed out
twice: every live stack holds memory, and two distinct stacks that hold memory occupy disjoint
blocks, each from its `struct stack_info` to the end of its handler record. -/
theorem stacks_never_overlap {env : Env} {rt : Runtime} (reachable : Reachable env rt) :
    (∀ stack, rt.live stack = true → rt.records stack ≠ none) ∧
    ∀ stack info stack' info', rt.records stack = some info → rt.records stack' = some info' →
      stack ≠ stack' → info.extentEnd ≤ stack' ∨ info'.extentEnd ≤ stack := by
  obtain ⟨lists, inv⟩ := reachable.invariant
  exact ⟨inv.recorded, inv.separate⟩

/-- The stacks of the run that allocates a fiber stack and frees it never overlap. -/
theorem freed_fiber_stacks_apart :
    Reachable (samplePlatform .plain true 64) (allocThenFree (samplePlatform .plain true 64) 64) ∧
      (∀ stack, (allocThenFree (samplePlatform .plain true 64) 64).live stack = true →
        (allocThenFree (samplePlatform .plain true 64) 64).records stack ≠ none) ∧
      ∀ stack info stack' info',
        (allocThenFree (samplePlatform .plain true 64) 64).records stack = some info →
        (allocThenFree (samplePlatform .plain true 64) 64).records stack' = some info' →
        stack ≠ stack' → info.extentEnd ≤ stack' ∨ info'.extentEnd ≤ stack :=
  have reachable := @allocThenFree_reachable (samplePlatform .plain true 64) rfl 64 (by decide)
  ⟨reachable, stacks_never_overlap reachable⟩

/-- Across every run of the stack store no stack is lost: each stack that holds memory is either
live and on no free list, or idle and on the free list of exactly one domain and size class. -/
theorem stack_live_or_cached {env : Env} {rt : Runtime} (reachable : Reachable env rt) :
    ∃ lists : Nat → Nat → List Nat,
      (∀ domain bucket, FreeList rt.records (rt.cache domain bucket) (lists domain bucket)) ∧
      ∀ stack, rt.records stack ≠ none →
        (rt.live stack = true ∧ ∀ domain bucket, stack ∉ lists domain bucket) ∨
        (rt.live stack = false ∧ ∃ domain bucket, stack ∈ lists domain bucket ∧
          ∀ domain' bucket', stack ∈ lists domain' bucket' → domain' = domain ∧ bucket' = bucket) := by
  obtain ⟨lists, inv⟩ := reachable.invariant
  refine ⟨lists, inv.linked, fun stack recorded => ?_⟩
  rcases inv.owned stack recorded with live | ⟨domain, bucket, listed⟩
  · exact .inl ⟨live, fun _ _ => inv.unlisted_of_live live⟩
  · exact .inr ⟨inv.idle _ _ _ listed, domain, bucket, listed,
      fun _ _ listed' => inv.disjoint _ _ _ _ _ listed' listed⟩

/-- Every stack of the run that allocates a fiber stack and frees it is live or cached. -/
theorem freed_fiber_stack_owned :
    Reachable (samplePlatform .plain true 64) (allocThenFree (samplePlatform .plain true 64) 64) ∧
      ∃ lists : Nat → Nat → List Nat,
        (∀ domain bucket, FreeList (allocThenFree (samplePlatform .plain true 64) 64).records
          ((allocThenFree (samplePlatform .plain true 64) 64).cache domain bucket)
          (lists domain bucket)) ∧
        ∀ stack, (allocThenFree (samplePlatform .plain true 64) 64).records stack ≠ none →
          ((allocThenFree (samplePlatform .plain true 64) 64).live stack = true ∧
            ∀ domain bucket, stack ∉ lists domain bucket) ∨
          ((allocThenFree (samplePlatform .plain true 64) 64).live stack = false ∧
            ∃ domain bucket, stack ∈ lists domain bucket ∧ ∀ domain' bucket',
              stack ∈ lists domain' bucket' → domain' = domain ∧ bucket' = bucket) :=
  have reachable := @allocThenFree_reachable (samplePlatform .plain true 64) rfl 64 (by decide)
  ⟨reachable, stack_live_or_cached reachable⟩

end Store

end FiberRuntime
