import CodexSdk.Luna.Exec
import CodexSdk.Thread.Latest
import Mathlib.Data.String.Basic

/-!
# `luna sessions`

`list_sessions` of `session.rs`: the threads of all pages that belong to a directory, each with the
preview of its last message, sorted and printed one to a line.

The sort is by a score with a default for a missing timestamp, and then by id, so the first line is
that of a plain minimum (`Precedes`).  What `Thread::resolve_latest_thread_id` picks from the same
pages is `IsLatest`, which is none; `first_row_iff` says when the two are one thread.
-/

set_option autoImplicit false

namespace CodexSdk.Luna

open Json Interleave

/-! ## Previews -/

/-- `raw.trim()`, unless nothing is left of it. -/
def trimmedText (raw : String) : Option String :=
  let trimmed := Text.trim raw.toList
  if trimmed.isEmpty then none else some (String.ofList trimmed)

def itemTextKeys : List String := ["text", "content", "message", "output_text", "outputText"]

def extractItemText : Value → Option String
  | .string raw => trimmedText raw
  | .array parts =>
    let texts := parts.filterMap fun part => extractItemText part
    if texts.isEmpty then none else some (" ".intercalate texts)
  | .object object => itemTextKeys.findSome? fun key =>
    match _h : Map.get object key with
    | some value => (extractItemText value).filter fun text => !text.isEmpty
    | none => none
  | _ => none
termination_by value => value
decreasing_by
  · have := List.sizeOf_lt_of_mem ‹_›
    simp; omega
  · have := Map.sizeOf_get _h
    simp; omega

def valueToText : Value → Option String
  | .string raw => trimmedText raw
  | value => extractItemText value

/-- `text.contains(part)`. -/
def containsText (text part : String) : Bool := decide (part.toList <:+: text.toList)

def isAssistantRole (role : String) : Bool :=
  let role := String.ofList (Text.toAsciiLowercase role.toList)
  containsText role "assistant" || containsText role "agent"

def isAssistantType (itemType : String) : Bool :=
  let itemType := String.ofList (Text.toAsciiLowercase itemType.toList)
  containsText itemType "assistant" || containsText itemType "agent_message" ||
    containsText itemType "agentmessage"

def itemIsAssistantMessage (item : Value) : Bool :=
  match item.asObject with
  | none => false
  | some object =>
    (optStr object "role").any isAssistantRole ||
      (((object.get "author").bind Value.asObject).bind (optStr · "role")).any isAssistantRole ||
      (optStr object "type").any isAssistantType

/-- The last text of an assistant and the last text of anyone. -/
structure LastMessages where
  lastAssistant : Option String
  lastAny : Option String

def extractLastMessageFromItems (items : List Value) : LastMessages :=
  items.foldl (fun last item =>
    match extractItemText item with
    | none => last
    | some text =>
      if text.isEmpty then last
      else ⟨if itemIsAssistantMessage item then some text else last.lastAssistant, some text⟩)
    ⟨none, none⟩

/-- Texts of later items take the place of those found so far. -/
def LastMessages.followedBy (last : LastMessages) (items : List Value) : LastMessages :=
  let found := extractLastMessageFromItems items
  ⟨found.lastAssistant.or last.lastAssistant, found.lastAny.or last.lastAny⟩

def extractLastMessageFromThreadRead (extra : Map) : Option String :=
  let own := match optArray extra "items" with
    | some items => LastMessages.followedBy ⟨none, none⟩ items
    | none => ⟨none, none⟩
  let last := ((optArray extra "turns").getD []).foldl (fun last turn =>
    match (turn.get "items").bind Value.asArray with
    | some items => last.followedBy items
    | none => last) own
  last.lastAssistant.or last.lastAny

def summaryPreviewKeys : List String :=
  ["lastMessage", "lastAgentMessage", "lastAssistantMessage", "snippet", "preview"]

def extractSummaryPreview (extra : Map) : Option String :=
  summaryPreviewKeys.findSome? fun key => (extra.get key).bind valueToText

/-- `text.split_whitespace()`. -/
def splitWhitespace (text : String) : List String :=
  ((text.toList.splitOnP Text.isWhitespace).filter fun word => !word.isEmpty).map String.ofList

def sessionPreviewCharLimit : Nat := 96

def cropPreviewText (text : String) (maxChars : Nat) : String :=
  let normalized := " ".intercalate (splitWhitespace text)
  if normalized.isEmpty then "(no message)"
  else if maxChars = 0 then "..."
  else if normalized.length ≤ maxChars then normalized
  else String.ofList (normalized.toList.take maxChars) ++ "..."

/-! ## Listing -/

structure SessionListEntry where
  id : String
  recencyScore : Int64
  lastMessage : String

/-- A command that talks to the server and prints; its state is what it has printed. -/
abbrev LunaM := Method Rpc Rpc.Result LunaError (List String)

/-- Requests as a command sees them: an error of the client is one of its own. -/
def asked (answer : ∀ o : Rpc, Except ClientError o.Result) (o : Rpc) : Except LunaError o.Result :=
  (answer o).mapError .client

def println (line : String) : LunaM Unit := do
  let printed ← Method.get
  Method.set (printed ++ [line])

def request (o : Rpc) : LunaM o.Result := Method.call o

/-- `Codex::thread_list`, which makes sure of the handshake first, as all of its methods do. -/
def codexThreadList (params : Map) : LunaM ThreadListResult := do
  request .ensureInitialized
  request (.threadList params)

/-- `Codex::thread_read`.  The result is an opaque object, all of it `extra`. -/
def codexThreadRead (threadId : String) : LunaM Map := do
  request .ensureInitialized
  let result : Value ← request
    (.operation "thread/read" (threadIdParams threadId [("includeTurns", some (.bool true))]))
  return result.asObject.getD []

def resolveLastMessagePreview (thread : ThreadSummary) : LunaM String :=
  match extractSummaryPreview thread.extra with
  | some preview => return preview
  | none => do
    let readResult ← codexThreadRead thread.id
    return (extractLastMessageFromThreadRead readResult).getD ""

/-- The score of a session: a thread without a timestamp has the lowest one. -/
def sessionScore (thread : ThreadSummary) : Int64 :=
  (threadRecencyScore thread).getD Int64.minValue

/-- The sessions of one page. -/
def sessionsOf (cwdFilter : Option String) : List ThreadSummary → LunaM (List SessionListEntry)
  | [] => return []
  | thread :: rest =>
    if threadMatchesWorkingDirectory thread cwdFilter then do
      let lastMessage ← resolveLastMessagePreview thread
      let sessions ← sessionsOf cwdFilter rest
      return ⟨thread.id, sessionScore thread, lastMessage⟩ :: sessions
    else sessionsOf cwdFilter rest

/-- The sessions of the pages from `cursor` on, of which at most `pages` are read. -/
def collectSessions (cwdFilter : Option String) :
    Nat → Option String → LunaM (List SessionListEntry)
  | 0, _ => .fail (.protocol
      s!"could not list sessions after scanning {maxThreadListPages} pages")
  | pages + 1, cursor => do
    let result ← codexThreadList (threadListParams cursor)
    let sessions ← sessionsOf cwdFilter result.data
    match result.nextCursor with
    | some next => do
      let rest ← collectSessions cwdFilter pages (some next)
      return sessions ++ rest
    | none => return sessions

/-- The order of the rows: by score, the highest first, and then by id. -/
def SessionListEntry.cmp (left right : SessionListEntry) : Ordering :=
  (compare right.recencyScore left.recencyScore).then (compare left.id right.id)

def sortSessions (sessions : List SessionListEntry) : List SessionListEntry :=
  sessions.mergeSort fun left right => (left.cmp right).isLE

def SessionListEntry.row (session : SessionListEntry) : String :=
  let preview := cropPreviewText session.lastMessage sessionPreviewCharLimit
  s!"{session.id}\t{preview}"

/-- What is printed when there are no sessions. -/
def noSessions : Option String → String
  | some cwd => s!"No recorded sessions found for {cwd}. Use --all to show all sessions."
  | none => "No recorded sessions found."

def printRows : List SessionListEntry → LunaM Unit
  | [] => return ()
  | session :: rest => do
    println session.row
    printRows rest

def listSessions (cwdFilter : Option String) : LunaM Unit := do
  let sessions ← collectSessions cwdFilter maxThreadListPages none
  match sortSessions sessions with
  | [] => println (noSessions cwdFilter)
  | sorted => do
    println "SESSION_ID\tLAST_MESSAGE"
    printRows sorted

/-! ## The order of the rows -/

/-- A row with the score `s` and the id `a` may stand before one with `s'` and `b`. -/
def Precedes (s : Int64) (a : String) (s' : Int64) (b : String) : Prop :=
  s' < s ∨ s' = s ∧ a ≤ b

theorem Precedes.trans {s s' s'' : Int64} {a b c : String} (h : Precedes s a s' b)
    (h' : Precedes s' b s'' c) : Precedes s a s'' c := by
  rcases h with h | ⟨rfl, h⟩ <;> rcases h' with h' | ⟨rfl, h'⟩
  · exact .inl (Int64.lt_trans h' h)
  · exact .inl h
  · exact .inl h'
  · exact .inr ⟨rfl, le_trans h h'⟩

theorem Precedes.total (s s' : Int64) (a b : String) : Precedes s a s' b ∨ Precedes s' b s a := by
  rcases Int64.lt_or_le s' s with h | h
  · exact .inl (.inl h)
  · rcases Int64.lt_or_eq_of_le h with h | rfl
    · exact .inr (.inl h)
    · exact (le_total a b).imp (.inr ⟨rfl, ·⟩) (.inr ⟨rfl, ·⟩)

theorem isLE_compare_string {a b : String} : (compare a b).isLE = true ↔ a ≤ b := by
  rw [← compare_le_iff_le]
  exact Ordering.isLE_iff_ne_gt

theorem isLE_cmp {a b : SessionListEntry} :
    (a.cmp b).isLE = true ↔ Precedes a.recencyScore a.id b.recencyScore b.id := by
  rw [SessionListEntry.cmp, Precedes]
  rcases hscore : compare b.recencyScore a.recencyScore
  · exact ⟨fun _ => .inl (Std.compare_eq_lt.1 hscore), fun _ => rfl⟩
  · have heq := Std.compare_eq_iff_eq.1 hscore
    rw [Ordering.then, isLE_compare_string]
    refine ⟨fun h => .inr ⟨heq, h⟩, ?_⟩
    rintro (h | h)
    · exact absurd (heq ▸ h) Int64.lt_irrefl
    · exact h.2
  · have hgt := Std.compare_eq_gt.1 hscore
    refine ⟨nofun, ?_⟩
    rintro (h | h)
    · exact absurd (Int64.lt_trans h hgt) Int64.lt_irrefl
    · exact absurd (h.1 ▸ hgt) Int64.lt_irrefl

/-- The rows are the sessions, each after all that may stand before it. -/
theorem sortSessions_pairwise (sessions : List SessionListEntry) :
    (sortSessions sessions).Pairwise fun a b =>
      Precedes a.recencyScore a.id b.recencyScore b.id := by
  refine List.Pairwise.imp isLE_cmp.1 (List.pairwise_mergeSort (fun a b c hab hbc => ?_)
    (fun a b => ?_) sessions)
  · exact isLE_cmp.2 ((isLE_cmp.1 hab).trans (isLE_cmp.1 hbc))
  · rw [Bool.or_eq_true]
    exact (Precedes.total ..).imp isLE_cmp.2 isLE_cmp.2

theorem precedes_of_sorted {sessions rest : List SessionListEntry} {first e : SessionListEntry}
    (hsorted : sortSessions sessions = first :: rest) (he : e ∈ sessions) :
    Precedes first.recencyScore first.id e.recencyScore e.id := by
  have hmem : e ∈ first :: rest := by
    rw [← hsorted, sortSessions]
    exact List.mem_mergeSort.2 he
  have hpairwise := sortSessions_pairwise sessions
  rw [hsorted, List.pairwise_cons] at hpairwise
  rcases List.mem_cons.1 hmem with rfl | he
  · exact .inr ⟨rfl, le_rfl⟩
  · exact hpairwise.1 e he

/-! ## What is collected and printed -/

section

variable {pages : Pages} {others : ∀ o : Rpc, Except ClientError o.Result}
  {cwdFilter : Option String} {printed printed' : List String}

/-- A session is the id and the score of its thread, with a preview. -/
def SessionListEntry.key (session : SessionListEntry) : String × Int64 :=
  (session.id, session.recencyScore)

def sessionKey (thread : ThreadSummary) : String × Int64 := (thread.id, sessionScore thread)

theorem asked_threadList (cursor : Option String) {page : ThreadListResult} :
    asked (pages.serve others) (.threadList (threadListParams cursor)) = .ok page ↔
      pages cursor = .ok page := by
  rw [asked, Pages.serve, cursorOf_threadListParams]
  cases pages cursor <;> simp [Except.mapError]

/-- A preview is found or not; nothing is printed for it. -/
theorem resolveLastMessagePreview_printed {answer : ∀ o : Rpc, Except LunaError o.Result}
    {thread : ThreadSummary} {preview : String}
    (h : (resolveLastMessagePreview thread).Succeeds answer printed preview printed') :
    printed' = printed := by
  rw [resolveLastMessagePreview] at h
  split at h
  · exact (Method.succeeds_pure.1 h).2
  · simp only [codexThreadRead, request, Method.succeeds_bind, Method.succeeds_call,
      Method.succeeds_pure] at h
    grind

theorem sessionsOf_succeeds {answer : ∀ o : Rpc, Except LunaError o.Result}
    {threads : List ThreadSummary} {sessions : List SessionListEntry}
    (h : (sessionsOf cwdFilter threads).Succeeds answer printed sessions printed') :
    printed' = printed ∧
      sessions.map SessionListEntry.key = (matchingThreads threads cwdFilter).map sessionKey := by
  induction threads generalizing sessions printed with
  | nil =>
    obtain ⟨rfl, hprinted⟩ := Method.succeeds_pure.1 h
    exact ⟨hprinted, rfl⟩
  | cons thread rest ih =>
    rw [sessionsOf] at h
    split at h
    · rename_i hmatch
      obtain ⟨preview, printed₁, hpreview, hrest⟩ := Method.succeeds_bind.1 h
      obtain ⟨more, printed₂, hmore, hreturn⟩ := Method.succeeds_bind.1 hrest
      obtain ⟨rfl, rfl⟩ := Method.succeeds_pure.1 hreturn
      obtain rfl := resolveLastMessagePreview_printed hpreview
      obtain ⟨rfl, hkeys⟩ := ih hmore
      rw [matchingThreads, List.filter_cons, if_pos hmatch, List.map_cons, List.map_cons, hkeys]
      exact ⟨rfl, rfl⟩
    · rename_i hmatch
      rw [matchingThreads, List.filter_cons, if_neg hmatch]
      exact ih h

/-- **What is collected** is the threads of a chain that ends, as far as they match. -/
theorem collectSessions_succeeds {n : Nat} {cursor : Option String}
    {sessions : List SessionListEntry}
    (h : (collectSessions cwdFilter n cursor).Succeeds (asked (pages.serve others)) printed sessions
      printed') :
    printed' = printed ∧ ∃ read, Chain pages cursor read ∧ read.length ≤ n ∧
      sessions.map SessionListEntry.key =
        (matchingThreads (listed read) cwdFilter).map sessionKey := by
  induction n generalizing cursor sessions printed with
  | zero => exact absurd h Method.succeeds_fail
  | succ n ih =>
    rw [collectSessions, codexThreadList] at h
    obtain ⟨page, printed₁, hlist, hsessions⟩ := Method.succeeds_bind.1 h
    obtain ⟨_, printed₀, hready, hcall⟩ := Method.succeeds_bind.1 hlist
    obtain ⟨-, rfl⟩ := Method.succeeds_call.1 hready
    obtain ⟨hanswer, rfl⟩ := Method.succeeds_call.1 hcall
    have hpage := (asked_threadList cursor).1 hanswer
    obtain ⟨own, printed₂, hown, hrest⟩ := Method.succeeds_bind.1 hsessions
    obtain ⟨rfl, hkeys⟩ := sessionsOf_succeeds hown
    cases hnext : page.nextCursor with
    | none =>
      rw [hnext] at hrest
      obtain ⟨rfl, rfl⟩ := Method.succeeds_pure.1 hrest
      refine ⟨rfl, [page], .last hpage hnext, by simp, ?_⟩
      rw [hkeys, listed, List.flatMap_singleton]
    | some next =>
      rw [hnext] at hrest
      obtain ⟨more, printed₃, hmore, hreturn⟩ := Method.succeeds_bind.1 hrest
      obtain ⟨rfl, rfl⟩ := Method.succeeds_pure.1 hreturn
      obtain ⟨rfl, rest, hchain, hle, hmoreKeys⟩ := ih hmore
      refine ⟨rfl, page :: rest, .next hpage hnext hchain, Nat.succ_le_succ hle, ?_⟩
      rw [List.map_append, hkeys, hmoreKeys, ← List.map_append, matchingThreads, matchingThreads,
        ← List.filter_append]
      rfl

theorem println_succeeds {answer : ∀ o : Rpc, Except LunaError o.Result} {line : String}
    {u : Unit} :
    (println line).Succeeds answer printed u printed' ↔ printed' = printed ++ [line] := by
  rw [println, Method.succeeds_bind_get, Method.succeeds_set]

theorem printRows_succeeds {answer : ∀ o : Rpc, Except LunaError o.Result}
    {sessions : List SessionListEntry} {u : Unit} :
    (printRows sessions).Succeeds answer printed u printed' ↔
      printed' = printed ++ sessions.map SessionListEntry.row := by
  induction sessions generalizing printed with
  | nil =>
    rw [printRows, Method.succeeds_pure, List.map_nil, List.append_nil]
    exact ⟨fun h => h.2, fun h => ⟨rfl, h⟩⟩
  | cons session rest ih =>
    simp only [printRows, Method.succeeds_bind, println_succeeds, ih]
    simp

/-- **What a listing prints**: the text for no sessions, or a row for each, under a header. -/
theorem listSessions_succeeds {u : Unit} {lines : List String}
    (h : (listSessions cwdFilter).Succeeds (asked (pages.serve others)) [] u lines) :
    ∃ read sessions, Chain pages none read ∧ read.length ≤ maxThreadListPages ∧
      sessions.map SessionListEntry.key =
        (matchingThreads (listed read) cwdFilter).map sessionKey ∧
      ((sortSessions sessions = [] ∧ lines = [noSessions cwdFilter]) ∨
        ∃ first rest, sortSessions sessions = first :: rest ∧
          lines = "SESSION_ID\tLAST_MESSAGE" :: first.row :: rest.map SessionListEntry.row) := by
  rw [listSessions] at h
  obtain ⟨sessions, printed₁, hcollect, hprint⟩ := Method.succeeds_bind.1 h
  obtain ⟨rfl, read, hchain, hle, hkeys⟩ := collectSessions_succeeds hcollect
  refine ⟨read, sessions, hchain, hle, hkeys, ?_⟩
  cases hsorted : sortSessions sessions with
  | nil =>
    rw [hsorted] at hprint
    exact .inl ⟨rfl, println_succeeds.1 hprint⟩
  | cons first rest =>
    rw [hsorted] at hprint
    obtain ⟨_, printed₂, hheader, hrows⟩ := Method.succeeds_bind.1 hprint
    have hheader := println_succeeds.1 hheader
    have hlines := printRows_succeeds.1 hrows
    rw [hheader] at hlines
    exact .inr ⟨first, rest, rfl, hlines⟩

end

/-! ## The first row and the latest thread -/

/-- The thread that is picked is also the first in the order of the rows: when it has no timestamp
no other has a score to speak of, and of the threads with its score it has the smallest id. -/
structure LeadsRows (threads : List ThreadSummary) (picked : ThreadSummary) : Prop where
  untimed : threadRecencyScore picked = none → ∀ u ∈ threads, sessionScore u = Int64.minValue
  ties : ∀ u ∈ threads, sessionScore u = sessionScore picked → picked.id ≤ u.id

theorem minValue_le_sessionScore (thread : ThreadSummary) :
    Int64.minValue ≤ sessionScore thread := Int64.minValue_le _

/-- No thread has a higher score than the latest one, unless that has no timestamp. -/
theorem IsLatest.score_le {threads : List ThreadSummary} {picked u : ThreadSummary}
    (h : IsLatest threads picked) (hu : u ∈ threads) :
    threadRecencyScore picked = none ∨ sessionScore u ≤ sessionScore picked := by
  cases h with
  | first _ hnone => exact .inl hnone
  | maximum heq hmax =>
    right
    rw [sessionScore, sessionScore, hmax.score_eq, Option.getD_some]
    cases hscore : threadRecencyScore u with
    | none => exact Int64.minValue_le _
    | some s =>
      rw [Option.getD_some]
      rw [heq, List.mem_append, List.mem_cons] at hu
      rcases hu with hu | rfl | hu
      · exact Int64.le_of_lt (hmax.before_lt u hu s hscore)
      · rw [hmax.score_eq] at hscore
        cases hscore
        exact Int64.le_refl _
      · exact hmax.after_le u hu s hscore

theorem leadsRows_iff {threads : List ThreadSummary} {picked first : ThreadSummary}
    (hpicked : IsLatest threads picked) (hfirst : first ∈ threads)
    (hlead : ∀ u ∈ threads, Precedes (sessionScore first) first.id (sessionScore u) u.id)
    (hids : (threads.map ThreadSummary.id).Nodup) :
    picked.id = first.id ↔ LeadsRows threads picked := by
  constructor
  · intro hid
    obtain rfl : picked = first := List.inj_on_of_nodup_map hids hpicked.mem hfirst hid
    refine ⟨fun hnone u hu => ?_, fun u hu heq => ?_⟩
    · have hmin : sessionScore picked = Int64.minValue := by rw [sessionScore, hnone]; rfl
      rcases hlead u hu with hlt | ⟨heq, -⟩
      · rw [hmin] at hlt
        exact absurd hlt (Int64.not_lt.2 (minValue_le_sessionScore u))
      · exact heq.trans hmin
    · rcases hlead u hu with hlt | ⟨-, hle⟩
      · rw [heq] at hlt
        exact absurd hlt Int64.lt_irrefl
      · exact hle
  · intro hagree
    rcases hlead picked hpicked.mem with hlt | ⟨heq, hle⟩
    · rcases IsLatest.score_le hpicked hfirst with hnone | hscore
      · rw [hagree.untimed hnone first hfirst] at hlt
        exact absurd hlt (Int64.not_lt.2 (minValue_le_sessionScore picked))
      · exact absurd hlt (Int64.not_lt.2 hscore)
    · exact le_antisymm (hagree.ties first hfirst heq.symm) hle

theorem key_eq {session : SessionListEntry} {thread : ThreadSummary}
    (h : session.key = sessionKey thread) :
    session.id = thread.id ∧ session.recencyScore = sessionScore thread :=
  Prod.mk.inj h

/-- The first of the sorted sessions is a thread that may stand before all others. -/
theorem first_of_sorted {threads : List ThreadSummary} {sessions rest : List SessionListEntry}
    {first : SessionListEntry} (hkeys : sessions.map SessionListEntry.key = threads.map sessionKey)
    (hsorted : sortSessions sessions = first :: rest) :
    ∃ t ∈ threads, first.id = t.id ∧
      ∀ u ∈ threads, Precedes (sessionScore t) t.id (sessionScore u) u.id := by
  have hmem : first ∈ sessions := by
    rw [← List.mem_mergeSort, ← sortSessions, hsorted]
    exact List.mem_cons_self
  have hkey : first.key ∈ threads.map sessionKey := hkeys ▸ List.mem_map_of_mem hmem
  obtain ⟨t, ht, heq⟩ := List.mem_map.1 hkey
  obtain ⟨hid, hscore⟩ := key_eq heq.symm
  refine ⟨t, ht, hid, fun u hu => ?_⟩
  have hkey' : sessionKey u ∈ sessions.map SessionListEntry.key :=
    hkeys ▸ List.mem_map_of_mem hu
  obtain ⟨e, he, heq'⟩ := List.mem_map.1 hkey'
  obtain ⟨hid', hscore'⟩ := key_eq heq'
  have hprecedes := precedes_of_sorted hsorted he
  rwa [hid, hscore, hid', hscore'] at hprecedes

/-- **The first row.**  It is that of the thread with the highest score, a missing timestamp being
the lowest one, and of those the one with the smallest id.  It is the thread that resolving the
latest one picks just when that one leads the rows. -/
theorem first_row_iff (pages : Pages) (others : ∀ o : Rpc, Except ClientError o.Result)
    (self : Thread) {read : List ThreadListResult} {lines : List String}
    (hread : Chain pages none read) (hids : ((listed read).map ThreadSummary.id).Nodup)
    (hlist : (listSessions self.options.workingDirectory).Succeeds (asked (pages.serve others)) []
      () lines) :
    let threads := matchingThreads (listed read) self.options.workingDirectory
    let resolved := (resolveLatestThreadId.against (pages.serve others) self).2.1
    (threads = [] ∧ lines = [noSessions self.options.workingDirectory] ∧
      ∀ id, resolved ≠ .ok id) ∨
    ∃ first ∈ threads, ∃ picked ∈ threads, resolved = .ok picked.id ∧
      (∃ (preview : String) (rest : List String),
        lines = "SESSION_ID\tLAST_MESSAGE" :: s!"{first.id}\t{preview}" :: rest) ∧
      (∀ u ∈ threads, sessionScore u < sessionScore first ∨
        sessionScore u = sessionScore first ∧ first.id ≤ u.id) ∧
      (picked.id = first.id ↔ LeadsRows threads picked) := by
  intro threads resolved
  obtain ⟨read', sessions, hread', hle, hkeys, hlines⟩ := listSessions_succeeds hlist
  obtain rfl := hread'.unique hread
  have hok := (resolveLatestThreadId_reads pages others self).2
  rcases hlines with ⟨hnil, hlines⟩ | ⟨first, rest, hsorted, hlines⟩
  · have hthreads : threads = [] := by
      have hperm := List.mergeSort_perm sessions fun left right => (left.cmp right).isLE
      rw [← sortSessions, hnil] at hperm
      rw [hperm.nil_eq.symm, List.map_nil] at hkeys
      exact List.map_eq_nil_iff.1 hkeys.symm
    refine .inl ⟨hthreads, hlines, fun id hid => ?_⟩
    obtain ⟨read'', hchain, -, hselect⟩ := (hok id).1 hid
    obtain rfl := hchain.unique hread
    obtain ⟨t, hlatest, -⟩ := selectLatestThreadId_eq_some.1 hselect
    have hmem : t ∈ threads := hlatest.mem
    rw [hthreads] at hmem
    cases hmem
  · obtain ⟨t, ht, hid, hlead⟩ := first_of_sorted hkeys hsorted
    obtain ⟨id, hselect⟩ := selectLatestThreadId_isSome.2
      ⟨t, (List.mem_filter.1 ht).1, (List.mem_filter.1 ht).2⟩
    obtain ⟨picked, hlatest, hpicked⟩ := selectLatestThreadId_eq_some.1 hselect
    have hnodup : (threads.map ThreadSummary.id).Nodup :=
      hids.sublist (List.Sublist.map _ List.filter_sublist)
    refine .inr ⟨t, ht, picked, hlatest.mem, (hok _).2 ⟨read', hread, hle, hpicked ▸ hselect⟩,
      ⟨cropPreviewText first.lastMessage sessionPreviewCharLimit,
        rest.map SessionListEntry.row, ?_⟩, hlead, leadsRows_iff hlatest ht hlead hnodup⟩
    rw [hlines, SessionListEntry.row, hid]

/-- A thread with this id, this time of its last update, and a preview. -/
def summaryOf (id : String) (updatedAt : Option UInt64) : ThreadSummary :=
  ⟨id, none, none, none, none,
    ("preview", .string "hi") :: (updatedAt.map fun t => ("updatedAt", .number (.posInt t))).toList⟩

/-- A server with one page. -/
def onePage (threads : List ThreadSummary) : Pages := fun _ => .ok ⟨threads, none⟩

/-- The handshake is done, and nothing else is answered. -/
def onlyReady : ∀ o : Rpc, Except ClientError o.Result
  | .ensureInitialized => .ok ()
  | _ => .error .transportClosed

theorem sortSessions_pair {a b : SessionListEntry} (h : (a.cmp b).isLE = false) :
    sortSessions [a, b] = [b, a] := by
  simp [sortSessions, List.mergeSort, h]

/-- The thread listed first has no timestamp, and the other one has. -/
def untimedFirst : List ThreadSummary := [summaryOf "newest" none, summaryOf "older" (some 100)]

theorem listSessions_untimedFirst :
    (listSessions none).Succeeds (asked ((onePage untimedFirst).serve onlyReady)) [] ()
      ["SESSION_ID\tLAST_MESSAGE", "older\thi", "newest\thi"] := by
  refine Method.succeeds_bind.2
    ⟨[⟨"newest", Int64.minValue, "hi"⟩, ⟨"older", 100, "hi"⟩], [], rfl, ?_⟩
  rw [sortSessions_pair (by decide)]
  rfl

/-- A thread without a timestamp that is listed first is picked as the latest one, but its row comes
last. -/
theorem latest_not_first_row :
    ¬ ∀ (pages : Pages) (others : ∀ o : Rpc, Except ClientError o.Result) (self : Thread)
      (read : List ThreadListResult) (lines : List String) (id : String),
      Chain pages none read → ((listed read).map ThreadSummary.id).Nodup →
      (listSessions self.options.workingDirectory).Succeeds (asked (pages.serve others)) [] ()
        lines →
      (resolveLatestThreadId.against (pages.serve others) self).2.1 = .ok id →
      ∃ (preview : String) (rest : List String),
        lines = "SESSION_ID\tLAST_MESSAGE" :: s!"{id}\t{preview}" :: rest := by
  intro h
  obtain ⟨preview, rest, hlines⟩ := h (onePage untimedFirst) onlyReady (resumeThread .latest {})
    [⟨untimedFirst, none⟩] _ "newest" (.last rfl rfl) (by decide) listSessions_untimedFirst rfl
  have hrow : "older\thi" = "newest" ++ "\t" ++ preview :=
    (List.cons.inj (List.cons.inj hlines).2).1
  have hhead := congrArg (fun row => row.toList.head?) hrow
  simp at hhead

theorem first_row_untimedFirst :
    ∃ first ∈ untimedFirst, ∃ picked ∈ untimedFirst,
      (resolveLatestThreadId.against ((onePage untimedFirst).serve onlyReady)
        (resumeThread .latest {})).2.1 = .ok picked.id ∧
      (picked.id = first.id ↔ LeadsRows untimedFirst picked) := by
  rcases first_row_iff (onePage untimedFirst) onlyReady (resumeThread .latest {})
    (Chain.last rfl rfl) (by decide) listSessions_untimedFirst with ⟨hnil, -⟩ | h
  · cases hnil
  · obtain ⟨first, hfirst, picked, hpicked, hresolved, -, -, hiff⟩ := h
    exact ⟨first, hfirst, picked, hpicked, hresolved, hiff⟩

end CodexSdk.Luna
