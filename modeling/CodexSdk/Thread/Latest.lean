import CodexSdk.Thread.Operations
import Mathlib.Data.List.Induction

/-!
# The latest thread

`Thread::resolve_latest_thread_id` follows the cursors of `thread/list` and picks one of the threads
it has collected.  Both halves are described here on their own terms: `Chain` is a chain of cursors
that ends, and `IsLatest` the thread that is picked from a list.

Picking is not the plain maximum of a score.  A thread that is listed first and has no timestamp is
picked whatever follows it; otherwise the threads without a timestamp do not count, and the first
one of the highest score is picked.
-/

set_option autoImplicit false

namespace CodexSdk

open Json Interleave

/-! ## Picking -/

/-- The threads recorded for a working directory. -/
def matchingThreads (threads : List ThreadSummary) (workingDirectory : Option String) :
    List ThreadSummary :=
  threads.filter fun thread => threadMatchesWorkingDirectory thread workingDirectory

/-- The highest score of the threads is that of `t`, and no thread before it has that score. -/
structure EarliestMaximum (before : List ThreadSummary) (t : ThreadSummary)
    (after : List ThreadSummary) (score : Int64) : Prop where
  score_eq : threadRecencyScore t = some score
  before_lt : ∀ u ∈ before, ∀ s, threadRecencyScore u = some s → s < score
  after_le : ∀ u ∈ after, ∀ s, threadRecencyScore u = some s → s ≤ score

/-- What is picked from a list of matching threads: the first one, if it has no timestamp, and
otherwise the earliest one with the highest score. -/
inductive IsLatest (threads : List ThreadSummary) (t : ThreadSummary) : Prop
  | first {after : List ThreadSummary} (heq : threads = t :: after)
      (hnone : threadRecencyScore t = none)
  | maximum {before after : List ThreadSummary} {score : Int64}
      (heq : threads = before ++ t :: after)
      (hmax : EarliestMaximum before t after score)
      (hfirst : ∀ u ∈ threads.head?, threadRecencyScore u ≠ none)

/-- The thread selected so far and the next one. -/
def keepLatest (selected : Option ThreadSummary) (thread : ThreadSummary) : Option ThreadSummary :=
  match selected with
  | none => some thread
  | some best =>
    if isNewer (threadRecencyScore best) (threadRecencyScore thread) then some thread else selected

theorem isNewer_iff {best score : Option Int64} :
    isNewer best score = true ↔ ∃ b s, best = some b ∧ score = some s ∧ b < s := by
  cases best <;> cases score <;> simp [isNewer]

/-- Selecting goes through the matching threads only. -/
theorem selectLatestThreadId_eq (threads : List ThreadSummary) (workingDirectory : Option String) :
    selectLatestThreadId threads workingDirectory =
      ((matchingThreads threads workingDirectory).foldl keepLatest none).map ThreadSummary.id := by
  rw [matchingThreads, List.foldl_filter]
  rfl

theorem IsLatest.mem {threads : List ThreadSummary} {t : ThreadSummary} (h : IsLatest threads t) :
    t ∈ threads := by
  cases h with
  | first heq => simp [heq]
  | maximum heq => simp [heq]

theorem head?_concat {threads : List ThreadSummary} {t : ThreadSummary} (h : t ∈ threads)
    (x : ThreadSummary) : (threads ++ [x]).head? = threads.head? :=
  List.head?_append_of_ne_nil _ (List.ne_nil_of_mem h)

/-- One more thread is listed after the others. -/
theorem IsLatest.concat {threads : List ThreadSummary} {t : ThreadSummary}
    (h : IsLatest threads t) (x : ThreadSummary) :
    ∃ t', keepLatest (some t) x = some t' ∧ IsLatest (threads ++ [x]) t' := by
  have hhead := head?_concat h.mem x
  by_cases hnew : isNewer (threadRecencyScore t) (threadRecencyScore x) = true
  · refine ⟨x, if_pos hnew, ?_⟩
    obtain ⟨best, score, hbest, hscore, hlt⟩ := isNewer_iff.1 hnew
    cases h with
    | first heq hnone =>
      rw [hnone] at hbest
      cases hbest
    | maximum heq hmax hfirst =>
      rw [hmax.score_eq] at hbest
      cases hbest
      refine .maximum rfl ⟨hscore, fun u hu s hs => ?_, by simp⟩ (hhead ▸ hfirst)
      rw [heq, List.mem_append, List.mem_cons] at hu
      rcases hu with hu | rfl | hu
      · exact Int64.lt_trans (hmax.before_lt u hu s hs) hlt
      · rw [hmax.score_eq] at hs
        cases hs
        exact hlt
      · exact Int64.lt_of_le_of_lt (hmax.after_le u hu s hs) hlt
  · refine ⟨t, if_neg hnew, ?_⟩
    cases h with
    | @first after heq hnone => exact .first (show _ = t :: (after ++ [x]) by rw [heq]; rfl) hnone
    | @maximum before after score heq hmax hfirst =>
      refine .maximum (show _ = before ++ t :: (after ++ [x]) by rw [heq, List.append_assoc]; rfl)
        ⟨hmax.score_eq, hmax.before_lt, fun u hu s hs => ?_⟩ (hhead ▸ hfirst)
      rcases List.mem_append.1 hu with hu | hu
      · exact hmax.after_le u hu s hs
      · rw [List.mem_singleton] at hu
        subst hu
        exact Int64.not_lt.1 fun hlt => hnew (isNewer_iff.2 ⟨_, _, hmax.score_eq, hs, hlt⟩)

/-- **The fold picks the latest thread**, and nothing only from nothing. -/
theorem foldl_keepLatest (threads : List ThreadSummary) :
    (threads = [] ∧ threads.foldl keepLatest none = none) ∨
      ∃ t, threads.foldl keepLatest none = some t ∧ IsLatest threads t := by
  induction threads using List.reverseRecOn with
  | nil => exact .inl ⟨rfl, rfl⟩
  | append_singleton threads x ih =>
    right
    rw [List.foldl_concat]
    rcases ih with ⟨rfl, -⟩ | ⟨t, hfold, hlatest⟩
    · refine ⟨x, rfl, ?_⟩
      cases hscore : threadRecencyScore x with
      | none => exact .first rfl hscore
      | some score =>
        exact .maximum (show [x] = [] ++ x :: [] from rfl) ⟨hscore, by simp, by simp⟩
          (by simp [hscore])
    · rw [hfold]
      exact hlatest.concat x

/-- Of two maxima, the one that stands earlier is the other one. -/
theorem EarliestMaximum.eq_of_le {b a b' a' l : List ThreadSummary} {u u' : ThreadSummary}
    {s s' : Int64} (h : EarliestMaximum b u a s) (h' : EarliestMaximum b' u' a' s')
    (hb : b' = b ++ l) (ha : u :: a = l ++ u' :: a') : u = u' := by
  cases l with
  | nil => exact (List.cons.inj ha).1
  | cons v l =>
    obtain ⟨rfl, rfl⟩ := List.cons.inj ha
    have hlt := h'.before_lt u (by simp [hb]) s h.score_eq
    have hle := h.after_le u' (by simp) s' h'.score_eq
    exact absurd hlt (Int64.not_lt.2 hle)

/-- A thread without a timestamp is picked only where it comes first, and then no other one is. -/
theorem IsLatest.eq_of_first {threads after : List ThreadSummary} {t t' : ThreadSummary}
    (heq : threads = t :: after) (hnone : threadRecencyScore t = none) (h' : IsLatest threads t') :
    t = t' := by
  cases h' with
  | first heq' => exact (List.cons.inj (heq.symm.trans heq')).1
  | maximum heq' hmax hfirst => exact absurd hnone (hfirst t (by simp [heq]))

/-- No list has two latest threads. -/
theorem IsLatest.unique {threads : List ThreadSummary} {t t' : ThreadSummary}
    (h : IsLatest threads t) (h' : IsLatest threads t') : t = t' := by
  cases h with
  | first heq hnone => exact IsLatest.eq_of_first heq hnone h'
  | maximum heq hmax hfirst =>
    cases h' with
    | first heq' hnone' => exact (IsLatest.eq_of_first heq' hnone' (.maximum heq hmax hfirst)).symm
    | maximum heq' hmax' hfirst' =>
      rcases List.append_eq_append_iff.1 (heq.symm.trans heq') with ⟨l, hb, ha⟩ | ⟨l, hb, ha⟩
      · exact hmax.eq_of_le hmax' hb ha
      · exact (hmax'.eq_of_le hmax hb ha).symm

/-- Among matching threads there is always a latest one, and it is the one that is selected. -/
theorem selectLatestThreadId_eq_some {threads : List ThreadSummary}
    {workingDirectory : Option String} {id : String} :
    selectLatestThreadId threads workingDirectory = some id ↔
      ∃ t, IsLatest (matchingThreads threads workingDirectory) t ∧ t.id = id := by
  rw [selectLatestThreadId_eq, Option.map_eq_some_iff]
  rcases foldl_keepLatest (matchingThreads threads workingDirectory) with
    ⟨hnil, hfold⟩ | ⟨t, hfold, hlatest⟩
  · rw [hfold, hnil]
    constructor
    · rintro ⟨t, ht, -⟩
      cases ht
    · rintro ⟨t, ht, -⟩
      cases ht.mem
  · rw [hfold]
    constructor
    · rintro ⟨t', ht', hid⟩
      cases ht'
      exact ⟨t, hlatest, hid⟩
    · rintro ⟨t', ht', hid⟩
      exact ⟨t, rfl, hlatest.unique ht' ▸ hid⟩

theorem selectLatestThreadId_isSome {threads : List ThreadSummary}
    {workingDirectory : Option String} :
    (∃ id, selectLatestThreadId threads workingDirectory = some id) ↔
      ∃ t ∈ threads, threadMatchesWorkingDirectory t workingDirectory = true := by
  constructor
  · rintro ⟨id, hid⟩
    obtain ⟨t, ht, -⟩ := selectLatestThreadId_eq_some.1 hid
    exact ⟨t, List.mem_filter.1 ht.mem⟩
  · rintro ⟨t, ht⟩
    have hmem : t ∈ matchingThreads threads workingDirectory := List.mem_filter.2 ht
    rcases foldl_keepLatest (matchingThreads threads workingDirectory) with
      ⟨hnil, -⟩ | ⟨u, -, hlatest⟩
    · rw [hnil] at hmem
      cases hmem
    · exact ⟨u.id, selectLatestThreadId_eq_some.2 ⟨u, hlatest, rfl⟩⟩

/-! ## Paging -/

/-- A server as far as its list of threads goes: the page under a cursor, or why there is none. -/
abbrev Pages := Option String → Except ClientError ThreadListResult

/-- The cursor of a `thread/list`. -/
def cursorOf (params : Map) : Option String := optStr params "cursor"

theorem cursorOf_threadListParams (cursor : Option String) :
    cursorOf (threadListParams cursor) = cursor := by
  cases cursor <;> rfl

/-- The server `pages` among the answers to all requests. -/
def Pages.serve (pages : Pages) (others : ∀ o : Rpc, Except ClientError o.Result) :
    (o : Rpc) → Except ClientError o.Result
  | .threadList params => pages (cursorOf params)
  | o => others o

/-- The chain of cursors from `cursor` on ends, after these pages. -/
inductive Chain (pages : Pages) : Option String → List ThreadListResult → Prop
  | last {cursor : Option String} {page : ThreadListResult} (hpage : pages cursor = .ok page)
      (hnext : page.nextCursor = none) : Chain pages cursor [page]
  | next {cursor : Option String} {page : ThreadListResult} {next : String}
      {rest : List ThreadListResult} (hpage : pages cursor = .ok page)
      (hnext : page.nextCursor = some next) (hrest : Chain pages (some next) rest) :
      Chain pages cursor (page :: rest)

/-- The threads of all pages, in order. -/
def listed (read : List ThreadListResult) : List ThreadSummary := read.flatMap ThreadListResult.data

section

variable {pages : Pages} {others : ∀ o : Rpc, Except ClientError o.Result} {self : Thread}

theorem Chain.unique {cursor : Option String} {read read' : List ThreadListResult}
    (h : Chain pages cursor read) (h' : Chain pages cursor read') : read = read' := by
  induction h generalizing read' with
  | last hpage hnext =>
    cases h' with
    | last hpage' => rw [hpage] at hpage'; cases hpage'; rfl
    | next hpage' hnext' => rw [hpage] at hpage'; cases hpage'; rw [hnext] at hnext'; cases hnext'
  | next hpage hnext _ ih =>
    cases h' with
    | last hpage' hnext' => rw [hpage] at hpage'; cases hpage'; rw [hnext] at hnext'; cases hnext'
    | next hpage' hnext' hrest' =>
      rw [hpage] at hpage'
      cases hpage'
      rw [hnext] at hnext'
      cases hnext'
      rw [ih hrest']

/-- An exchange that reads a page. -/
def IsThreadList (x : RpcExchange) : Prop := ∃ cursor, x.1 = .threadList (threadListParams cursor)

/-- What reading at most `n` pages from `cursor` on comes to. -/
structure Reads (pages : Pages) (n : Nat) (cursor : Option String) (thread : Thread)
    (done : List RpcExchange × Except ClientError (List ThreadSummary) × Thread) : Prop where
  length_le : done.1.length ≤ n
  isThreadList : ∀ x ∈ done.1, IsThreadList x
  state_eq : done.2.2 = thread
  ok_iff : ∀ threads, done.2.1 = .ok threads ↔
    ∃ read, Chain pages cursor read ∧ read.length ≤ n ∧ threads = listed read

theorem Chain.length_pos {cursor : Option String} {read : List ThreadListResult}
    (h : Chain pages cursor read) : 0 < read.length := by
  cases h with
  | last => exact Nat.zero_lt_one
  | next => exact Nat.succ_pos _

theorem Chain.page {cursor : Option String} {read : List ThreadListResult}
    (h : Chain pages cursor read) : ∃ page, pages cursor = .ok page := by
  cases h with
  | last hpage => exact ⟨_, hpage⟩
  | next hpage => exact ⟨_, hpage⟩

theorem chain_of_last {cursor : Option String} {page : ThreadListResult}
    {read : List ThreadListResult} (hpage : pages cursor = .ok page)
    (hnext : page.nextCursor = none) :
    Chain pages cursor read ↔ read = [page] := by
  constructor
  · exact fun h => h.unique (.last hpage hnext)
  · rintro rfl
    exact .last hpage hnext

theorem chain_of_next {cursor : Option String} {page : ThreadListResult} {next : String}
    {read : List ThreadListResult} (hpage : pages cursor = .ok page)
    (hnext : page.nextCursor = some next) :
    Chain pages cursor read ↔ ∃ rest, read = page :: rest ∧ Chain pages (some next) rest := by
  constructor
  · intro h
    cases h with
    | last hpage' hnext' =>
      rw [hpage] at hpage'
      cases hpage'
      rw [hnext] at hnext'
      cases hnext'
    | next hpage' hnext' hrest =>
      rw [hpage] at hpage'
      cases hpage'
      rw [hnext] at hnext'
      cases hnext'
      exact ⟨_, rfl, hrest⟩
  · rintro ⟨rest, rfl, hrest⟩
    exact .next hpage hnext hrest

theorem threadList_against (pages : Pages) (others : ∀ o : Rpc, Except ClientError o.Result)
    (self : Thread) (cursor : Option String) :
    (rpc (.threadList (threadListParams cursor))).against (pages.serve others) self =
      ([⟨.threadList (threadListParams cursor), pages cursor⟩], pages cursor, self) := by
  rw [rpc, Method.against_call, Pages.serve, cursorOf_threadListParams]

/-- **Reading pages**: never more than `n` of them, and successfully just when the chain is no
longer than that. -/
theorem collectThreads_reads (pages : Pages) (others : ∀ o : Rpc, Except ClientError o.Result)
    (self : Thread) (n : Nat) (cursor : Option String) :
    Reads pages n cursor self ((collectThreads n cursor).against (pages.serve others) self) := by
  induction n generalizing cursor with
  | zero =>
    rw [collectThreads, Method.against_fail]
    refine ⟨Nat.le_refl _, by simp, rfl, fun threads => ⟨fun h => (nomatch h), ?_⟩⟩
    rintro ⟨read, hchain, hle, -⟩
    have := hchain.length_pos
    omega
  | succ n ih =>
    have hcall := threadList_against pages others self cursor
    have hlist : ∀ r, IsThreadList ⟨.threadList (threadListParams cursor), r⟩ :=
      fun _ => ⟨cursor, rfl⟩
    rw [collectThreads]
    cases hpage : pages cursor with
    | error e =>
      rw [hpage] at hcall
      rw [Method.against_bind_of_error hcall]
      refine ⟨by simp, by simpa using hlist _, rfl, fun threads => ⟨fun h => (nomatch h), ?_⟩⟩
      rintro ⟨read, hchain, -⟩
      obtain ⟨page, hok⟩ := hchain.page
      rw [hpage] at hok
      cases hok
    | ok page =>
      rw [hpage] at hcall
      rw [Method.against_bind_of_ok hcall]
      cases hnext : page.nextCursor with
      | none =>
        rw [Method.against_pure]
        refine ⟨by simp, by simpa using hlist _, rfl, fun threads => ?_⟩
        simp only [chain_of_last hpage hnext]
        constructor
        · rintro ⟨⟩
          exact ⟨[page], rfl, by simp, by simp [listed]⟩
        · rintro ⟨read, rfl, -, rfl⟩
          simp [listed]
      | some next =>
        have hrest := ih (some next)
        rw [Method.against_bind_pure]
        refine ⟨Nat.succ_le_succ hrest.length_le,
          List.forall_mem_cons.2 ⟨hlist _, hrest.isThreadList⟩, hrest.state_eq, fun threads => ?_⟩
        refine Json.map_eq_ok.trans ?_
        simp only [hrest.ok_iff, chain_of_next hpage hnext]
        constructor
        · rintro ⟨_, ⟨rest, hchain, hle, rfl⟩, rfl⟩
          exact ⟨page :: rest, ⟨rest, rfl, hchain⟩, Nat.succ_le_succ hle, rfl⟩
        · rintro ⟨_, ⟨rest, rfl, hchain⟩, hle, rfl⟩
          exact ⟨_, ⟨rest, hchain, Nat.le_of_succ_le_succ hle, rfl⟩, rfl⟩

/-! ## Resolving -/

/-- What resolving does with the threads it has collected: it selects one, or says for which
directory there is none, and asks nothing more. -/
theorem resolveLatestThreadId_of_ok {exchanges : List RpcExchange} {threads : List ThreadSummary}
    {self' : Thread}
    (h : (collectThreads maxThreadListPages none).against (pages.serve others) self =
      (exchanges, .ok threads, self')) :
    ∃ r, resolveLatestThreadId.against (pages.serve others) self = (exchanges, r, self') ∧
      ∀ id, r = .ok id ↔ selectLatestThreadId threads self'.options.workingDirectory = some id := by
  rw [resolveLatestThreadId, Method.against_bind_of_ok h,
    Method.against_bind_of_ok (show Method.get.against _ self' = ([], .ok self', self') from rfl)]
  cases selectLatestThreadId threads self'.options.workingDirectory with
  | some threadId =>
    refine ⟨.ok threadId, congrArg (·, _) (List.append_nil _), fun id => ?_⟩
    rw [Except.ok.injEq, Option.some.injEq]
  | none =>
    cases self'.options.workingDirectory with
    | some workingDirectory =>
      exact ⟨_, congrArg (·, _) (List.append_nil _), fun id => ⟨nofun, nofun⟩⟩
    | none => exact ⟨_, congrArg (·, _) (List.append_nil _), fun id => ⟨nofun, nofun⟩⟩

/-- **Resolving reads pages and nothing else**, and selects among the threads of a chain that
ends. -/
theorem resolveLatestThreadId_reads (pages : Pages)
    (others : ∀ o : Rpc, Except ClientError o.Result) (self : Thread) :
    ((resolveLatestThreadId.against (pages.serve others) self).1.length ≤ maxThreadListPages ∧
      ∀ x ∈ (resolveLatestThreadId.against (pages.serve others) self).1, IsThreadList x) ∧
    ∀ id, (resolveLatestThreadId.against (pages.serve others) self).2.1 = .ok id ↔
      ∃ read, Chain pages none read ∧ read.length ≤ maxThreadListPages ∧
        selectLatestThreadId (listed read) self.options.workingDirectory = some id := by
  have hreads := collectThreads_reads pages others self maxThreadListPages none
  rcases hcollect : (collectThreads maxThreadListPages none).against (pages.serve others) self with
    ⟨exchanges, e | threads, self'⟩
  · rw [hcollect] at hreads
    rw [resolveLatestThreadId, Method.against_bind_of_error hcollect]
    refine ⟨⟨hreads.length_le, hreads.isThreadList⟩, fun id => ⟨nofun, ?_⟩⟩
    rintro ⟨read, hchain, hle, -⟩
    cases (hreads.ok_iff _).2 ⟨read, hchain, hle, rfl⟩
  · rw [hcollect] at hreads
    obtain ⟨r, heq, hr⟩ := resolveLatestThreadId_of_ok hcollect
    obtain rfl : self' = self := hreads.state_eq
    rw [heq]
    refine ⟨⟨hreads.length_le, hreads.isThreadList⟩, fun id => (hr id).trans ⟨fun hid => ?_, ?_⟩⟩
    · obtain ⟨read, hchain, hle, rfl⟩ := (hreads.ok_iff threads).1 rfl
      exact ⟨read, hchain, hle, hid⟩
    · rintro ⟨read, hchain, hle, hid⟩
      cases (hreads.ok_iff _).2 ⟨read, hchain, hle, rfl⟩
      exact hid

end

end CodexSdk
