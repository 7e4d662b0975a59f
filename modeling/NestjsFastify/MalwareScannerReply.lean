import NestjsFastify.MalwareScannerStream
import NestjsFastify.ScriptText
import NestjsFastify.Utf8Decoding

/-! # The reply of clamd

`MalwareScannerService.scan` gathers what clamd answers until the socket ends, closes, fails or
times out, and reads a verdict from it.  clamd may be cut off in the middle of its reply.
-/
namespace NestjsFastify.MalwareScanner
open LengthPrefixedFraming
open ScriptText (isBlank includes includes_iff endsWith endsWith_iff trim Solid)
open Utf8Decoding (IsAscii asciiBytes decode)

/-! ### Reading a verdict -/

def limitMarkers : List String :=
  ["Heuristics.Limits.Exceeded", "size limit exceeded", "INSTREAM size limit"]

def interpretScannerReply (reply : List Char) : Except String MalwareScanResult :=
  if limitMarkers.any fun marker => includes reply marker.toList then .ok .unscannable
  else if endsWith reply "OK".toList then .ok .clean
  else if includes reply "FOUND".toList then .ok .infected
  else .error "Malware scanner returned an invalid response"

/-- `buffer.toString('utf8').replace(/\0+$/, '').trim()` -/
def replyText (bytes : Bytes) : List Char := trim ((decode bytes).rdropWhile (· = '\x00'))

/-! ### The scan -/

/-- What happens to a scan: an event of the socket, or `streamToScanner` returns or throws. -/
inductive ScanEvent where
  | data (chunk : Bytes)
  | ended
  | closed
  | timedOut
  | errored (error : String)
  | sent (error : Option String)
  deriving DecidableEq, Repr

/-- The chunks that `collectReply` has, how its promise was settled, and whether `streamToScanner`
is over. -/
structure ScanState where
  chunks : List Bytes := []
  reply : Option (Except String (List Char)) := none
  sent : Bool := false

/-- `finish` of `collectReply`; only the first call has an effect. -/
def ScanState.finish (state : ScanState) (error : Option String) : ScanState :=
  if state.reply.isSome then state
  else { state with
    reply := some (match error with
      | some error => .error error
      | none => .ok (replyText state.chunks.flatten)) }

def ScanState.handle (state : ScanState) : ScanEvent → ScanState
  | .data chunk =>
      if state.reply.isSome then state else { state with chunks := state.chunks ++ [chunk] }
  | .ended => state.finish none
  | .closed => state.finish none
  | .timedOut => state.finish (some "Malware scanner timed out")
  | .errored error => state.finish (if 0 < state.chunks.length then none else some error)
  -- a failed write is never the answer
  | .sent _ => { state with sent := true }

/-- The scan's own promise, once both waits are over. -/
def ScanState.result (state : ScanState) : Option (Except String MalwareScanResult) :=
  if state.sent then state.reply.map (· >>= interpretScannerReply) else none

structure ScannerConfig where
  enabled : Bool
  maxBytes : Nat
  deriving DecidableEq, Repr

/-- The scanner is enabled and takes objects of this size, so a socket is opened. -/
def Connects (config : ScannerConfig) (sizeBytes : Option Nat) : Prop :=
  config.enabled = true ∧ sizeBytes.any (config.maxBytes < ·) = false

/-- How the scan stands after some events. -/
def scan (config : ScannerConfig) (sizeBytes : Option Nat) (events : List ScanEvent) :
    Option (Except String MalwareScanResult) :=
  if !config.enabled then
    some (.error "Malware scanning is disabled; pending scans cannot be marked clean")
  else if sizeBytes.any (config.maxBytes < ·) then some (.ok .unscannable)
  else (events.foldl ScanState.handle {}).result

/-! ### What clamd replies -/

inductive ClamdReply where
  | clean
  | found (signature : Bytes)
  | error (message : Bytes)
  deriving DecidableEq, Repr

inductive ReplyKind where
  | clean
  | infected
  | limit
  | error
  deriving DecidableEq, Repr

def ClamdReply.text : ClamdReply → Bytes
  | clean => asciiBytes "stream: OK".toList
  | found signature =>
      asciiBytes "stream: ".toList ++ signature ++ asciiBytes " FOUND".toList
  | error message => message ++ asciiBytes " ERROR".toList

/-- The answer to a command that begins with `z` ends with a zero byte. -/
def ClamdReply.wire (reply : ClamdReply) : Bytes := reply.text ++ [0]

/-- The bytes name a limit that stopped the scan. -/
def Marked (bytes : Bytes) : Prop :=
  ∃ marker ∈ limitMarkers, asciiBytes marker.toList <:+: bytes

instance (bytes : Bytes) : Decidable (Marked bytes) :=
  inferInstanceAs (Decidable (∃ marker ∈ limitMarkers, _))

def ClamdReply.kind (reply : ClamdReply) : ReplyKind :=
  match reply with
  | clean => .clean
  | found _ => if Marked reply.wire then .limit else .infected
  | error _ => if Marked reply.wire then .limit else .error

/-! ### Soundness -/

def ScanEvent.bytes : ScanEvent → Bytes
  | data chunk => chunk
  | _ => []

/-- The bytes that arrive in the course of some events. -/
def received (events : List ScanEvent) : Bytes := events.flatMap ScanEvent.bytes

/-- The event settles the reply. -/
def ScanEvent.stops : ScanEvent → Bool
  | data _ => false
  | sent _ => false
  | _ => true

/-- What a scan makes of a reply that arrives whole before the socket is done. -/
def verdictAt (reply : ClamdReply) : ScanEvent → Except String MalwareScanResult
  | .timedOut => .error "Malware scanner timed out"
  | _ => interpretScannerReply (replyText reply.wire)

/-- The laws of a scan to which clamd sends the reply, as much of it as arrives. -/
structure VerdictSound (reply : ClamdReply) : Prop where
  clean : ∀ config sizeBytes events, received events <+: reply.wire →
    scan config sizeBytes events = some (.ok .clean) → reply.kind = .clean
  infected : ∀ config sizeBytes events, received events <+: reply.wire →
    scan config sizeBytes events = some (.ok .infected) → reply.kind = .infected
  silent : ∀ config sizeBytes events, Connects config sizeBytes → received events = [] →
    ∀ verdict, scan config sizeBytes events ≠ some (.ok verdict)
  settled_once : ∀ config sizeBytes events later result,
    scan config sizeBytes events = some result →
      scan config sizeBytes (events ++ later) = some result
  settles : ∀ config sizeBytes events stop error, stop ∈ events → stop.stops = true →
    .sent error ∈ events → (scan config sizeBytes events).isSome = true
  complete : ∀ config sizeBytes before stop after error, Connects config sizeBytes →
    (∀ event ∈ before, event.stops = false) → received before = reply.wire →
    stop.stops = true → .sent error ∈ before ++ stop :: after →
      scan config sizeBytes (before ++ stop :: after) = some (verdictAt reply stop)

/-- Every occurrence of the word in the bytes has a limit marker before it. -/
def BehindMarker (word : String) (bytes : Bytes) : Prop :=
  ∀ before, before ++ asciiBytes word.toList <+: bytes →
    Marked (before ++ asciiBytes word.toList)

/-- No beginning of the reply reads like another one. -/
def Unambiguous (reply : ClamdReply) : Prop :=
  reply = .clean ∨
    BehindMarker "OK" reply.wire ∧
      (reply.kind = .infected ∨ BehindMarker "FOUND" reply.wire)

/-! ### What the reply says -/

theorem solid_words : ∀ word ∈ "OK" :: "FOUND" :: limitMarkers,
    (∀ character ∈ word.toList, IsAscii character) ∧
      Solid isBlank word.toList ∧ Solid (fun character => character = '\x00') word.toList := by
  have ascii : (("OK" :: "FOUND" :: limitMarkers).all fun word => word.toList.all fun character =>
      character.toNat < 0x80) = true := by decide
  have solid : ∀ word ∈ "OK" :: "FOUND" :: limitMarkers,
      word.toList ≠ [] ∧ (word.toList.head?.all fun character =>
        !isBlank character && character != '\x00') = true ∧
      (word.toList.getLast?.all fun character =>
        !isBlank character && character != '\x00') = true := by decide
  intro word member
  obtain ⟨nonempty, first, last⟩ := solid word member
  rw [List.head?_eq_some_head nonempty] at first
  rw [List.getLast?_eq_some_getLast nonempty] at last
  simp only [Option.all_some, Bool.and_eq_true, Bool.not_eq_true', bne_iff_ne] at first last
  have here : ∀ character ∈ word.toList, character.toNat < 0x80 := fun character own =>
    of_decide_eq_true (List.all_eq_true.mp (List.all_eq_true.mp ascii word member) character own)
  exact ⟨here, ⟨nonempty, first.1, last.1⟩,
    ⟨nonempty, decide_eq_false first.2, decide_eq_false last.2⟩⟩

/-- A word is in the text of a reply exactly if its bytes are in the reply. -/
theorem infix_replyText_iff {word : String} (member : word ∈ "OK" :: "FOUND" :: limitMarkers)
    (bytes : Bytes) : word.toList <:+: replyText bytes ↔ asciiBytes word.toList <:+: bytes := by
  obtain ⟨ascii, solid, solidNul⟩ := solid_words word member
  rw [replyText, ScriptText.infix_trim_iff solid, ← Utf8Decoding.infix_decode_iff ascii]
  constructor
  · exact fun occurs => occurs.trans (List.rdropWhile_prefix _ _).isInfix
  · exact ScriptText.infix_rdropWhile solidNul

/-- A reply that breaks off behind a word has a text that ends with it. -/
theorem suffix_replyText {word : String} (member : word ∈ "OK" :: "FOUND" :: limitMarkers)
    (before : Bytes) : word.toList <:+ replyText (before ++ asciiBytes word.toList) := by
  obtain ⟨ascii, solid, solidNul⟩ := solid_words word member
  obtain ⟨front, same⟩ := Utf8Decoding.decode_of_bytes ascii solid.nonempty before []
  rw [List.append_nil] at same
  have ends : word.toList <:+ decode (before ++ asciiBytes word.toList) :=
    ⟨front, by rw [same]; exact (List.append_nil _).symm⟩
  rw [replyText, ScriptText.rdropWhile_of_suffix solidNul ends]
  exact ScriptText.suffix_trim solid ends

theorem includes_marker_iff (bytes : Bytes) :
    (limitMarkers.any fun marker => includes (replyText bytes) marker.toList) = true ↔
      Marked bytes := by
  simp only [List.any_eq_true, includes_iff, Marked]
  refine exists_congr fun marker => and_congr_right fun member => ?_
  exact infix_replyText_iff (List.mem_cons_of_mem _ (List.mem_cons_of_mem _ member)) bytes

theorem Marked.mono {bytes larger : Bytes} (marked : Marked bytes) (within : bytes <:+: larger) :
    Marked larger := by
  obtain ⟨marker, member, occurs⟩ := marked
  exact ⟨marker, member, occurs.trans within⟩

/-- An unmarked reply that breaks off behind `OK` reads as clean. -/
theorem interpret_ok {before : Bytes} (unmarked : ¬ Marked (before ++ asciiBytes "OK".toList)) :
    interpretScannerReply (replyText (before ++ asciiBytes "OK".toList)) = .ok .clean := by
  have ends := suffix_replyText (show "OK" ∈ _ from List.mem_cons_self) before
  rw [interpretScannerReply, if_neg (fun any => unmarked ((includes_marker_iff _).mp any)),
    if_pos (endsWith_iff.mpr ends)]

/-- An unmarked reply that breaks off behind `FOUND` reads as an infection. -/
theorem interpret_found {before : Bytes}
    (unmarked : ¬ Marked (before ++ asciiBytes "FOUND".toList)) :
    interpretScannerReply (replyText (before ++ asciiBytes "FOUND".toList)) = .ok .infected := by
  have ends := suffix_replyText
    (show "FOUND" ∈ _ from List.mem_cons_of_mem "OK" List.mem_cons_self) before
  have notClean : ¬ "OK".toList <:+ replyText (before ++ asciiBytes "FOUND".toList) := by
    intro clean
    have both := List.suffix_of_suffix_length_le clean ends (by decide)
    exact absurd both (by decide)
  rw [interpretScannerReply, if_neg (fun any => unmarked ((includes_marker_iff _).mp any)),
    if_neg (fun clean => notClean (endsWith_iff.mp clean)),
    if_pos (includes_iff.mpr ends.isInfix)]

/-- Bytes with a word in them have a beginning that breaks off behind it. -/
private theorem exists_prefix {word : String} {bytes wire : Bytes} (beginning : bytes <+: wire)
    (occurs : asciiBytes word.toList <:+: bytes) (unmarked : ¬ Marked bytes) :
    ∃ before, before ++ asciiBytes word.toList <+: wire ∧
      ¬ Marked (before ++ asciiBytes word.toList) := by
  obtain ⟨before, after, rfl⟩ := occurs
  refine ⟨before, (List.prefix_append _ after).trans beginning, fun marked => unmarked ?_⟩
  exact marked.mono (List.prefix_append _ after).isInfix

/-- What reads as a verdict has no limit marker, and has the word of the verdict. -/
theorem interpret_cases {bytes : Bytes} {verdict : MalwareScanResult}
    (read : interpretScannerReply (replyText bytes) = .ok verdict) :
    verdict = .unscannable ∨ ¬ Marked bytes ∧
      (verdict = .clean ∧ asciiBytes "OK".toList <:+: bytes ∨
        verdict = .infected ∧ asciiBytes "FOUND".toList <:+: bytes) := by
  unfold interpretScannerReply at read
  split at read
  · exact .inl (Except.ok.inj read).symm
  · rename_i unmarked
    refine .inr ⟨fun marked => unmarked ((includes_marker_iff _).mpr marked), ?_⟩
    split at read
    · rename_i ends
      refine .inl ⟨(Except.ok.inj read).symm, ?_⟩
      exact (infix_replyText_iff List.mem_cons_self bytes).mp (endsWith_iff.mp ends).isInfix
    · split at read
      · rename_i occurs
        refine .inr ⟨(Except.ok.inj read).symm, ?_⟩
        exact (infix_replyText_iff (List.mem_cons_of_mem _ List.mem_cons_self) bytes).mp
          (includes_iff.mp occurs)
      · simp at read

/-! ### What a scan has gathered -/

/-- The state of a scan after some events. -/
def scanned (events : List ScanEvent) : ScanState := events.foldl ScanState.handle {}

theorem scanned_concat (events : List ScanEvent) (event : ScanEvent) :
    scanned (events ++ [event]) = (scanned events).handle event := by
  simp [scanned]

theorem received_concat (events : List ScanEvent) (event : ScanEvent) :
    received (events ++ [event]) = received events ++ event.bytes := by
  simp [received]

theorem scan_of_connects {config : ScannerConfig} {sizeBytes : Option Nat}
    (connects : Connects config sizeBytes) (events : List ScanEvent) :
    scan config sizeBytes events = (scanned events).result := by
  rw [scan, if_neg (by simp [connects.1]), if_neg (by simp [connects.2]), scanned]

theorem finish_none (state : ScanState) (error : Option String) (open' : state.reply = none) :
    (state.finish error).reply = some (match error with
      | some error => .error error
      | none => .ok (replyText state.chunks.flatten)) := by
  simp [ScanState.finish, open']

/-- Nothing moves a settled reply. -/
theorem reply_handle (state : ScanState) (event : ScanEvent)
    (settled : state.reply.isSome = true) : (state.handle event).reply = state.reply := by
  cases event <;> simp [ScanState.handle, ScanState.finish, settled]

theorem sent_handle (state : ScanState) (event : ScanEvent) (sent : state.sent = true) :
    (state.handle event).sent = true := by
  cases event <;> simp only [ScanState.handle, ScanState.finish] <;> (try split) <;>
    exact sent

/-- What settles the reply: the stop, with what arrived before it. -/
theorem reply_stop (state : ScanState) {stop : ScanEvent} (stops : stop.stops = true)
    (open' : state.reply = none) :
    (state.handle stop).reply = some (match stop with
      | .timedOut => .error "Malware scanner timed out"
      | .errored error =>
          if 0 < state.chunks.length then .ok (replyText state.chunks.flatten) else .error error
      | _ => .ok (replyText state.chunks.flatten)) := by
  cases stop with
  | data chunk => simp [ScanEvent.stops] at stops
  | sent error => simp [ScanEvent.stops] at stops
  | ended | closed | timedOut => exact finish_none state _ open'
  | errored error =>
    simp only [ScanState.handle]
    split <;> exact finish_none state _ open'

/-- Until the reply is settled all that arrives is kept; a settled text is that of bytes that
arrived first. -/
theorem gathered (events : List ScanEvent) :
    ((scanned events).reply = none → (scanned events).chunks.flatten = received events) ∧
      ∀ text, (scanned events).reply = some (.ok text) →
        ∃ bytes, bytes <+: received events ∧ text = replyText bytes := by
  induction events using List.reverseRecOn with
  | nil => exact ⟨fun _ => rfl, by simp [scanned]⟩
  | append_singleton events event ih =>
    obtain ⟨kept, texts⟩ := ih
    have longer : received events <+: received (events ++ [event]) := by
      rw [received_concat]
      exact List.prefix_append _ _
    cases unsettled : (scanned events).reply with
    | some reply =>
      have settled : (scanned events).reply.isSome = true := by simp [unsettled]
      rw [scanned_concat, reply_handle _ _ settled]
      refine ⟨by simp [unsettled], fun text same => ?_⟩
      obtain ⟨bytes, beginning, rfl⟩ := texts text same
      exact ⟨bytes, beginning.trans longer, rfl⟩
    | none =>
      rw [scanned_concat]
      cases stops : event.stops with
      | false =>
        have untouched : ((scanned events).handle event).reply = none ∧
            ((scanned events).handle event).chunks.flatten =
              (scanned events).chunks.flatten ++ event.bytes := by
          cases event <;> simp [ScanEvent.stops] at stops <;>
            simp [ScanState.handle, unsettled, ScanEvent.bytes]
        refine ⟨fun _ => ?_, by simp [untouched.1]⟩
        rw [untouched.2, kept unsettled, received_concat]
      | true =>
        rw [reply_stop _ stops unsettled]
        refine ⟨by simp, fun text same => ⟨received events, longer, ?_⟩⟩
        rw [← kept unsettled]
        cases event with
        | data chunk => simp [ScanEvent.stops] at stops
        | sent error => simp [ScanEvent.stops] at stops
        | timedOut => simp at same
        | ended | closed => simpa using same.symm
        | errored error =>
          simp only [Option.some.injEq] at same
          split at same
          · exact (Except.ok.inj same).symm
          · simp at same

/-- A scan that resolves has read its verdict from bytes that arrived, or refused the object. -/
theorem scan_ok {config : ScannerConfig} {sizeBytes : Option Nat} {events : List ScanEvent}
    {verdict : MalwareScanResult} (resolved : scan config sizeBytes events = some (.ok verdict)) :
    (verdict = .unscannable ∧ ¬ Connects config sizeBytes) ∨
      ∃ bytes, bytes <+: received events ∧
        interpretScannerReply (replyText bytes) = .ok verdict := by
  unfold scan at resolved
  split at resolved
  · simp at resolved
  split at resolved
  · rename_i large
    refine .inl ⟨(Except.ok.inj (Option.some.inj resolved)).symm, fun connects => ?_⟩
    simp [connects.2] at large
  · right
    change (scanned events).result = _ at resolved
    unfold ScanState.result at resolved
    split at resolved
    · obtain ⟨reply, settled, same⟩ := Option.map_eq_some_iff.mp resolved
      cases reply with
      | error error => simp [bind, Except.bind] at same
      | ok text =>
        obtain ⟨bytes, beginning, rfl⟩ := (gathered events).2 text settled
        exact ⟨bytes, beginning, same⟩
    · simp at resolved

/-! ### The laws -/

theorem result_handle (state : ScanState) (event : ScanEvent)
    {result : Except String MalwareScanResult} (settled : state.result = some result) :
    (state.handle event).result = some result := by
  unfold ScanState.result at *
  split at settled
  · rename_i sent
    obtain ⟨reply, same, -⟩ := Option.map_eq_some_iff.mp settled
    rw [if_pos (sent_handle state event sent), reply_handle state event (by simp [same])]
    exact settled
  · simp at settled

theorem result_foldl {state : ScanState} {result : Except String MalwareScanResult}
    (settled : state.result = some result) (later : List ScanEvent) :
    (later.foldl ScanState.handle state).result = some result := by
  induction later generalizing state with
  | nil => exact settled
  | cons event later ih => exact ih (result_handle state event settled)

/-- A settled scan stays settled. -/
theorem scan_append {config : ScannerConfig} {sizeBytes : Option Nat} {events : List ScanEvent}
    {result : Except String MalwareScanResult} (settled : scan config sizeBytes events = some result)
    (later : List ScanEvent) : scan config sizeBytes (events ++ later) = some result := by
  unfold scan at *
  split
  · rw [if_pos ‹_›] at settled
    exact settled
  rw [if_neg ‹_›] at settled
  split
  · rw [if_pos ‹_›] at settled
    exact settled
  · rw [if_neg ‹_›] at settled
    rw [List.foldl_append]
    exact result_foldl settled later

theorem reply_foldl {state : ScanState} (settled : state.reply.isSome = true)
    (later : List ScanEvent) :
    (later.foldl ScanState.handle state).reply = state.reply := by
  induction later generalizing state with
  | nil => rfl
  | cons event later ih =>
    have same := reply_handle state event settled
    rw [List.foldl_cons, ih (same ▸ settled), same]

theorem sent_of_mem {events : List ScanEvent} {error : Option String}
    (member : .sent error ∈ events) : (scanned events).sent = true := by
  have stays : ∀ (later : List ScanEvent) (state : ScanState), state.sent = true →
      (later.foldl ScanState.handle state).sent = true := by
    intro later
    induction later with
    | nil => exact fun state sent => sent
    | cons event later ih => exact fun state sent => ih _ (sent_handle state event sent)
  obtain ⟨before, after, rfl⟩ := List.append_of_mem member
  rw [scanned, List.foldl_append, List.foldl_cons]
  exact stays after _ rfl

/-- Before the first stop the reply is open. -/
theorem reply_before {events : List ScanEvent} (none : ∀ event ∈ events, event.stops = false) :
    (scanned events).reply = .none := by
  induction events using List.reverseRecOn with
  | nil => rfl
  | append_singleton events event ih =>
    have earlier := ih fun other member => none other (List.mem_append_left _ member)
    have here := none event (by simp)
    rw [scanned_concat]
    cases event <;> simp [ScanEvent.stops] at here <;> simp [ScanState.handle, earlier]

/-- A stop leaves the reply settled. -/
theorem isSome_reply_of_stop {events : List ScanEvent} {stop : ScanEvent} (member : stop ∈ events)
    (stops : stop.stops = true) : (scanned events).reply.isSome = true := by
  obtain ⟨before, after, rfl⟩ := List.append_of_mem member
  have settled : ((scanned before).handle stop).reply.isSome = true := by
    cases earlier : (scanned before).reply with
    | none => simp [reply_stop _ stops earlier]
    | some reply => rw [reply_handle _ _ (by simp [earlier]), earlier, Option.isSome_some]
  rw [scanned, List.foldl_append, List.foldl_cons]
  exact (reply_foldl settled after) ▸ settled

theorem scan_settles {config : ScannerConfig} {sizeBytes : Option Nat} {events : List ScanEvent}
    {stop : ScanEvent} {error : Option String} (member : stop ∈ events)
    (stops : stop.stops = true) (sent : .sent error ∈ events) :
    (scan config sizeBytes events).isSome = true := by
  unfold scan
  split
  · rfl
  split
  · rfl
  · change (scanned events).result.isSome = true
    rw [ScanState.result, if_pos (sent_of_mem sent), Option.isSome_map]
    exact isSome_reply_of_stop member stops

/-- Without a byte there is no verdict. -/
theorem not_resolved_of_silence {config : ScannerConfig} {sizeBytes : Option Nat}
    {events : List ScanEvent} (connects : Connects config sizeBytes) (nothing : received events = [])
    (verdict : MalwareScanResult) : scan config sizeBytes events ≠ some (.ok verdict) := by
  intro resolved
  rcases scan_ok resolved with ⟨-, refused⟩ | ⟨bytes, beginning, read⟩
  · exact refused connects
  · rw [nothing, List.prefix_nil] at beginning
    subst beginning
    have invalid : interpretScannerReply (replyText []) =
        .error "Malware scanner returned an invalid response" := by decide
    simp [invalid] at read

theorem wire_ne_nil (reply : ClamdReply) : reply.wire ≠ [] := by
  simp [ClamdReply.wire]

/-- A reply that arrives whole is read whole, however it was cut and whatever the sender met. -/
theorem scan_complete (reply : ClamdReply) {config : ScannerConfig} {sizeBytes : Option Nat}
    {before after : List ScanEvent} {stop : ScanEvent} {error : Option String}
    (connects : Connects config sizeBytes) (calm : ∀ event ∈ before, event.stops = false)
    (whole : received before = reply.wire) (stops : stop.stops = true)
    (sent : .sent error ∈ before ++ stop :: after) :
    scan config sizeBytes (before ++ stop :: after) = some (verdictAt reply stop) := by
  have open' := reply_before calm
  have bytes : (scanned before).chunks.flatten = reply.wire :=
    ((gathered before).1 open').trans whole
  have some' : 0 < (scanned before).chunks.length := by
    refine List.length_pos_iff.mpr fun none => wire_ne_nil reply ?_
    rw [← bytes, none, List.flatten_nil]
  have settles := reply_stop (scanned before) stops open'
  have settled : ((scanned before).handle stop).reply.isSome = true := by simp [settles]
  have final : (scanned (before ++ stop :: after)).reply = ((scanned before).handle stop).reply := by
    rw [scanned, List.foldl_append, List.foldl_cons]
    exact reply_foldl settled after
  rw [scan_of_connects connects, ScanState.result, if_pos (sent_of_mem sent), final, settles, bytes]
  cases stop with
  | data chunk => simp [ScanEvent.stops] at stops
  | sent error => simp [ScanEvent.stops] at stops
  | ended | closed | timedOut => rfl
  | errored error =>
    simp only [if_pos some']
    rfl

/-- clamd hangs up after a part of its reply. -/
theorem scan_hangUp (bytes : Bytes) :
    scan ⟨true, 0⟩ none [.data bytes, .closed, .sent none] =
      some (interpretScannerReply (replyText bytes)) := by
  have same : [bytes].flatten = bytes := by simp
  calc
    scan ⟨true, 0⟩ none [.data bytes, .closed, .sent none] =
        some (interpretScannerReply (replyText [bytes].flatten)) := rfl
    _ = some (interpretScannerReply (replyText bytes)) := by rw [same]

theorem kind_eq_clean_iff (reply : ClamdReply) : reply.kind = .clean ↔ reply = .clean := by
  cases reply with
  | clean => simp [ClamdReply.kind]
  | found signature =>
    simp only [ClamdReply.kind, reduceCtorEq, iff_false]
    split <;> exact nofun
  | error message =>
    simp only [ClamdReply.kind, reduceCtorEq, iff_false]
    split <;> exact nofun

/-- A scan gets a verdict only from a reply that means it, exactly when no beginning of the reply
reads as another verdict. -/
theorem verdictSound_iff_unambiguous (reply : ClamdReply) :
    VerdictSound reply ↔ Unambiguous reply := by
  constructor
  · intro sound
    by_cases clean : reply = .clean
    · exact .inl clean
    refine .inr ⟨fun before beginning => ?_, or_iff_not_imp_left.mpr fun other before beginning => ?_⟩
    · by_contra unmarked
      refine clean ((kind_eq_clean_iff reply).mp (sound.clean ⟨true, 0⟩ none _ ?_
        ((scan_hangUp _).trans (congrArg some (interpret_ok unmarked)))))
      simpa [received, ScanEvent.bytes] using beginning
    · by_contra unmarked
      refine other (sound.infected ⟨true, 0⟩ none _ ?_
        ((scan_hangUp _).trans (congrArg some (interpret_found unmarked))))
      simpa [received, ScanEvent.bytes] using beginning
  · intro unambiguous
    constructor
    · intro config sizeBytes events delivered resolved
      rcases scan_ok resolved with ⟨impossible, -⟩ | ⟨bytes, beginning, read⟩
      · simp at impossible
      rcases unambiguous with clean | ⟨behind, -⟩
      · exact (kind_eq_clean_iff reply).mpr clean
      rcases interpret_cases read with impossible | ⟨unmarked, ⟨-, occurs⟩ | ⟨impossible, -⟩⟩
      · simp at impossible
      · obtain ⟨before, earlier, unread⟩ :=
          exists_prefix (beginning.trans delivered) occurs unmarked
        exact absurd (behind before earlier) unread
      · simp at impossible
    · intro config sizeBytes events delivered resolved
      rcases scan_ok resolved with ⟨impossible, -⟩ | ⟨bytes, beginning, read⟩
      · simp at impossible
      rcases interpret_cases read with impossible | ⟨unmarked, ⟨impossible, -⟩ | ⟨-, occurs⟩⟩
      · simp at impossible
      · simp at impossible
      obtain ⟨before, earlier, unread⟩ :=
        exists_prefix (beginning.trans delivered) occurs unmarked
      rcases unambiguous with rfl | ⟨-, infected | behind⟩
      · have within : asciiBytes "FOUND".toList <:+: ClamdReply.clean.wire :=
          occurs.trans (beginning.trans delivered).isInfix
        exact absurd within (by decide)
      · exact infected
      · exact absurd (behind before earlier) unread
    · exact fun config sizeBytes events connects nothing => not_resolved_of_silence connects nothing
    · exact fun config sizeBytes events later result settled => scan_append settled later
    · exact fun config sizeBytes events stop error member stops sent =>
        scan_settles member stops sent
    · exact fun config sizeBytes before stop after error connects calm whole stops sent =>
        scan_complete reply connects calm whole stops sent

/-- The reply on an infected object reads as clean when clamd is cut off inside the name. -/
theorem truncatedSignature_clean :
    (ClamdReply.found (asciiBytes "Win.Trojan.LOKI".toList)).kind = .infected ∧
      received [.data (asciiBytes "stream: Win.Trojan.LOK".toList), .closed, .sent none] <+:
        (ClamdReply.found (asciiBytes "Win.Trojan.LOKI".toList)).wire ∧
      scan ⟨true, 0⟩ none
        [.data (asciiBytes "stream: Win.Trojan.LOK".toList), .closed, .sent none] =
          some (.ok .clean) ∧
      ¬ VerdictSound (.found (asciiBytes "Win.Trojan.LOKI".toList)) := by
  have kind : (ClamdReply.found (asciiBytes "Win.Trojan.LOKI".toList)).kind = .infected := by
    decide
  have delivered :
      received [.data (asciiBytes "stream: Win.Trojan.LOK".toList), .closed, .sent none] <+:
        (ClamdReply.found (asciiBytes "Win.Trojan.LOKI".toList)).wire := by decide
  have resolved : scan ⟨true, 0⟩ none
      [.data (asciiBytes "stream: Win.Trojan.LOK".toList), .closed, .sent none] =
        some (.ok .clean) := rfl
  refine ⟨kind, delivered, resolved, fun sound => ?_⟩
  have claimed := sound.clean _ _ _ delivered resolved
  exact absurd (kind.symm.trans claimed) (by decide)

end NestjsFastify.MalwareScanner
