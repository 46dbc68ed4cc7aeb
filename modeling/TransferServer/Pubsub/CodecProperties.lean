import TransferServer.Lib.StreamParser
import TransferServer.Net.BufferProperties
import TransferServer.Pubsub.Codec

/-! `parseMessage` reads the readable bytes as a stream parser does: what it answers does
not change when more bytes arrive, unless it asked for them. -/

set_option autoImplicit false

namespace TransferServer.Pubsub

open Lib Net

/-- What one call makes of the bytes of the stream, with no buffer around them. -/
def parseText (text : Bytes) : Parsed Byte Message :=
  match search Buffer.kCRLF text with
  | none => .more
  | some eol =>
      let line := text.take eol
      let rest := text.drop (eol + 2)
      let space := line.findIdx (· == kSpace)
      if space < eol then
        if line.take space = kPub then
          match search Buffer.kCRLF rest with
          | none => .more
          | some stop => .item ⟨line.take space, line.drop (space + 1), rest.take stop⟩ (rest.drop (stop + 2))
        else .item ⟨line.take space, line.drop (space + 1), []⟩ rest
      else .reject

theorem first_line_append {text : Bytes} {eol : Nat}
    (found : search Buffer.kCRLF text = some eol) (later : Bytes) :
    search Buffer.kCRLF (text ++ later) = some eol ∧ (text ++ later).take eol = text.take eol ∧
      (text ++ later).drop (eol + 2) = text.drop (eol + 2) ++ later := by
  have bound : eol + 2 ≤ text.length := search_bound found
  exact ⟨search_append found later, List.take_append_of_le_length (by omega),
    List.drop_append_of_le_length bound⟩

theorem parseText_progress {text rest : Bytes} {message : Message}
    (parsed : parseText text = .item message rest) : rest.length < text.length := by
  unfold parseText at parsed
  cases found : search Buffer.kCRLF text with
  | none => simp [found] at parsed
  | some eol =>
      have bound : eol + 2 ≤ text.length := search_bound found
      simp only [found] at parsed
      split at parsed
      · split at parsed
        · split at parsed
          · cases parsed
          · cases parsed
            simp only [List.length_drop]
            omega
        · cases parsed
          simp only [List.length_drop]
          omega
      · cases parsed

theorem parseText_item_append {text rest : Bytes} {message : Message}
    (parsed : parseText text = .item message rest) (later : Bytes) :
    parseText (text ++ later) = .item message (rest ++ later) := by
  unfold parseText at parsed ⊢
  cases found : search Buffer.kCRLF text with
  | none => simp [found] at parsed
  | some eol =>
      obtain ⟨found', line, remaining⟩ := first_line_append found later
      simp only [found, found', line, remaining] at parsed ⊢
      split at parsed
      · next spaced =>
          rw [if_pos spaced]
          split at parsed
          · next isPub =>
              rw [if_pos isPub]
              cases content : search Buffer.kCRLF (text.drop (eol + 2)) with
              | none => simp [content] at parsed
              | some stop =>
                  obtain ⟨content', taken, dropped⟩ := first_line_append content later
                  simp only [content, content', taken, dropped] at parsed ⊢
                  cases parsed
                  rfl
          · next other =>
              rw [if_neg other]
              cases parsed
              rfl
      · cases parsed

theorem parseText_reject_append {text : Bytes} (parsed : parseText text = .reject) (later : Bytes) :
    parseText (text ++ later) = .reject := by
  unfold parseText at parsed ⊢
  cases found : search Buffer.kCRLF text with
  | none => simp [found] at parsed
  | some eol =>
      obtain ⟨found', line, remaining⟩ := first_line_append found later
      simp only [found, found', line, remaining] at parsed ⊢
      split at parsed
      · split at parsed
        · split at parsed <;> cases parsed
        · cases parsed
      · next unspaced => rw [if_neg unspaced]

def messageParser : StreamParser Byte Message where
  parse := parseText
  parse_nil := rfl
  progress := parseText_progress
  item_append := parseText_item_append
  reject_append := parseText_reject_append

section Located

variable {buf : Buffer} {eol : Nat}

theorem segment_readable (valid : buf.Valid) {stop : Nat} (within : stop ≤ buf.readable.length) :
    segment buf.buffer buf.peek (buf.peek + stop) = buf.readable.take stop := by
  have ordered := valid.ordered
  rw [Buffer.length_readable valid, Buffer.readableBytes] at within
  have upper : buf.readerIndex + stop ≤ buf.writerIndex := by omega
  exact (take_segment upper).symm

theorem segment_line (valid : buf.Valid) (within : eol ≤ buf.readable.length) (position : Nat) :
    segment buf.buffer (buf.peek + position) (buf.peek + eol) = (buf.readable.take eol).drop position := by
  rw [← segment_readable valid within, drop_segment]

theorem find_line (valid : buf.Valid) (within : eol ≤ buf.readable.length) :
    find buf.buffer buf.peek (buf.peek + eol) kSpace =
      buf.peek + (buf.readable.take eol).findIdx (· == kSpace) := by
  rw [find, segment_readable valid within]

theorem findCRLFFrom_readable (valid : buf.Valid) {position : Nat}
    (within : position ≤ buf.readable.length) :
    buf.findCRLFFrom (buf.peek + position) =
      .ok ((search Buffer.kCRLF (buf.readable.drop position)).map (buf.peek + position + ·)) := by
  have ordered := valid.ordered
  rw [Buffer.length_readable valid, Buffer.readableBytes] at within
  have upper : buf.peek + position ≤ buf.beginWrite := by
    change buf.readerIndex + position ≤ buf.writerIndex
    omega
  simp only [Buffer.findCRLFFrom, assert_of (Nat.le_add_right buf.peek position), assert_of upper,
    ok_bind, pure_eq_ok, Buffer.readable, drop_segment]
  rfl

theorem retrieveUntil_readable (valid : buf.Valid) {position : Nat}
    (within : position ≤ buf.readable.length) :
    ∃ after, buf.retrieveUntil (buf.peek + position) = .ok after ∧ after.Valid ∧
      after.readable = buf.readable.drop position := by
  have ordered := valid.ordered
  rw [Buffer.length_readable valid, Buffer.readableBytes] at within
  have upper : buf.peek + position ≤ buf.beginWrite := by
    change buf.readerIndex + position ≤ buf.writerIndex
    omega
  have retrieved := Buffer.retrieveUntil_spec valid (Nat.le_add_right buf.peek position) upper
  rwa [Nat.add_sub_cancel_left] at retrieved

end Located

/-- A call that asks for more or reports an error leaves the buffer as it is; a success
takes exactly the message off its front. No assertion of the buffer fails. -/
theorem parseMessage_spec {buf : Buffer} (valid : buf.Valid) :
    match parseText buf.readable with
    | .more => ∃ out, parseMessage buf .empty = .ok (.kContinue, out, buf)
    | .reject => parseMessage buf .empty = .ok (.kError, .empty, buf)
    | .item message rest => ∃ after, parseMessage buf .empty = .ok (.kSuccess, message, after) ∧
        after.Valid ∧ after.readable = rest := by
  unfold parseText parseMessage Buffer.findCRLF
  cases found : search Buffer.kCRLF buf.readable with
  | none => exact ⟨.empty, rfl⟩
  | some eol =>
      have bound : eol + 2 ≤ buf.readable.length := search_bound found
      have within : eol ≤ buf.readable.length := by omega
      have lineLength : (buf.readable.take eol).length = eol := by
        rw [List.length_take]
        omega
      have spaceBound : (buf.readable.take eol).findIdx (· == kSpace) ≤ eol :=
        Nat.le_trans List.findIdx_le_length (Nat.le_of_eq lineLength)
      simp only [Option.map_some, find_line valid within, segment_line valid within, Nat.add_assoc,
        segment_readable valid (Nat.le_trans spaceBound within)]
      generalize (buf.readable.take eol).findIdx (· == kSpace) = space at spaceBound ⊢
      have cmd : (buf.readable.take eol).take space = buf.readable.take space := by
        rw [List.take_take, Nat.min_eq_left spaceBound]
      by_cases spaced : space < eol
      · have apart : buf.peek + space ≠ buf.peek + eol := by omega
        simp only [if_pos spaced, if_pos apart, cmd]
        by_cases isPub : buf.readable.take space = kPub
        · simp only [if_pos isPub, findCRLFFrom_readable valid bound, ok_bind]
          cases content : search Buffer.kCRLF (buf.readable.drop (eol + 2)) with
          | none => exact ⟨_, rfl⟩
          | some stop =>
              have stopBound : stop + 2 ≤ (buf.readable.drop (eol + 2)).length := search_bound content
              rw [List.length_drop] at stopBound
              have text : segment buf.buffer (buf.peek + (eol + 2)) (buf.peek + (eol + 2) + stop) =
                  (buf.readable.drop (eol + 2)).take stop := by
                rw [Nat.add_assoc, segment_line valid (by omega), List.drop_take, Nat.add_sub_cancel_left]
              have taken : eol + 2 + (stop + 2) ≤ buf.readable.length := by omega
              obtain ⟨after, retrieved, kept, rest⟩ := retrieveUntil_readable valid taken
              rw [← Nat.add_assoc, ← Nat.add_assoc] at retrieved
              simp only [Option.map_some, text, retrieved, ok_bind]
              exact ⟨after, rfl, kept, by rw [rest, List.drop_drop]⟩
        · obtain ⟨after, retrieved, kept, rest⟩ := retrieveUntil_readable valid bound
          simp only [if_neg isPub, retrieved, ok_bind]
          exact ⟨after, rfl, kept, rest⟩
      · have same : ¬ buf.peek + space ≠ buf.peek + eol := by omega
        simp only [if_neg spaced, if_neg same]
        rfl

/-- The verdict that a drained stream shows to the caller. -/
def verdictOf (rejected : Bool) : ParseResult :=
  if rejected then .kError else .kContinue

theorem verdictOf_eq_kError {rejected : Bool} : verdictOf rejected = .kError ↔ rejected = true := by
  cases rejected <;> simp [verdictOf]

/-- Enough calls drain the buffer; each success shortens it, so one call more than it has
bytes is enough. -/
theorem parseAll_spec {buf : Buffer} (valid : buf.Valid) {fuel : Nat}
    (enough : buf.readable.length < fuel) :
    ∃ after, parseAll fuel buf = .ok (some ((messageParser.drain buf.readable).items,
        verdictOf (messageParser.drain buf.readable).rejected, after)) ∧
      after.Valid ∧ after.readable = (messageParser.drain buf.readable).rest := by
  induction fuel generalizing buf with
  | zero => exact absurd enough (Nat.not_lt_zero _)
  | succ fuel ih =>
      have call := parseMessage_spec valid
      cases parsed : parseText buf.readable with
      | more =>
          rw [parsed] at call
          obtain ⟨out, called⟩ := call
          rw [messageParser.drain_more parsed]
          exact ⟨buf, by simp only [parseAll, called, ok_bind]; rfl, valid, rfl⟩
      | reject =>
          rw [parsed] at call
          rw [messageParser.drain_reject parsed]
          exact ⟨buf, by simp only [parseAll, call, ok_bind]; rfl, valid, rfl⟩
      | item message rest =>
          rw [parsed] at call
          obtain ⟨after, called, kept, same⟩ := call
          have shorter := parseText_progress parsed
          rw [← same] at shorter
          obtain ⟨final, finished, kept', rest'⟩ := ih kept (Nat.lt_of_lt_of_le shorter (Nat.le_of_lt_succ enough))
          rw [messageParser.drain_item parsed, ← same]
          refine ⟨final, ?_, kept', rest'⟩
          simp only [parseAll, called, finished, ok_bind, ↓reduceIte]
          rfl

/-- A reader shows what draining its stream has given so far. -/
structure Reader.Shows (reader : Reader) (drained : Drained Byte Message) : Prop where
  valid : reader.buf.Valid
  messages : reader.messages = drained.items
  verdict : reader.verdict = verdictOf drained.rejected
  unread : reader.buf.readable = drained.rest

theorem Reader.fresh_shows : Reader.fresh.Shows ⟨[], false, []⟩ :=
  ⟨Buffer.fresh_valid, rfl, rfl, Buffer.readable_fresh⟩

theorem Reader.receive_shows {reader : Reader} {drained : Drained Byte Message}
    (shows : reader.Shows drained) (chunk : Bytes) {fuel : Nat}
    (enough : drained.rest.length + chunk.length < fuel) :
    ∃ after, reader.receive fuel chunk = .ok (some after) ∧
      after.Shows (messageParser.feed drained chunk) := by
  obtain ⟨buf, appended, kept, joined⟩ := Buffer.append_spec shows.valid chunk
  rw [shows.unread] at joined
  cases rejected : drained.rejected with
  | true =>
      have failed : reader.verdict = .kError := by
        rw [shows.verdict, verdictOf_eq_kError, rejected]
      refine ⟨{ reader with buf }, ?_, kept, ?_, ?_, ?_⟩
      · simp only [Reader.receive, appended, ok_bind, if_pos failed]
        rfl
      · simpa [StreamParser.feed, rejected] using shows.messages
      · simpa [StreamParser.feed, rejected] using shows.verdict
      · simpa [StreamParser.feed, rejected] using joined
  | false =>
      have open' : reader.verdict ≠ .kError := by
        rw [shows.verdict, ne_eq, verdictOf_eq_kError, rejected]
        exact Bool.false_ne_true
      obtain ⟨rest, parsed, kept', unread⟩ := parseAll_spec kept (by
        rw [joined, List.length_append]
        exact enough)
      rw [joined] at parsed unread
      refine ⟨⟨rest, reader.messages ++ (messageParser.drain (drained.rest ++ chunk)).items,
        verdictOf (messageParser.drain (drained.rest ++ chunk)).rejected⟩, ?_, kept', ?_, ?_, ?_⟩
      · simp only [Reader.receive, appended, ok_bind, if_neg open', parsed]
        rfl
      · simp [StreamParser.feed, rejected, shows.messages]
      · simp [StreamParser.feed, rejected]
      · simpa [StreamParser.feed, rejected] using unread

/-- The chunks still to come are counted with what is unread, so one bound on the number of
calls serves every chunk of the stream. -/
theorem Reader.receiveAll_shows {reader : Reader} {drained : Drained Byte Message}
    (shows : reader.Shows drained) {chunks : List Bytes} {fuel : Nat}
    (enough : drained.rest.length + chunks.flatten.length < fuel) :
    ∃ after, reader.receiveAll fuel chunks = .ok (some after) ∧
      after.Shows (chunks.foldl messageParser.feed drained) := by
  induction chunks generalizing reader drained with
  | nil => exact ⟨reader, rfl, shows⟩
  | cons chunk chunks ih =>
      rw [List.flatten_cons, List.length_append] at enough
      obtain ⟨next, received, shown⟩ := receive_shows shows chunk (Nat.lt_of_le_of_lt (by omega) enough)
      have shrunk := messageParser.length_feed_rest drained chunk
      obtain ⟨after, finished, final⟩ := ih shown (by omega)
      exact ⟨after, by simp only [Reader.receiveAll, received, ok_bind, finished], final⟩

/-- Parsing after each chunk and parsing the whole stream at once read the same messages,
end with the same verdict and leave the same bytes unread. Allowing one call more than the
stream has bytes is enough for both to get there. -/
theorem parseMessage_chunking (chunks : List Bytes) {fuel : Nat}
    (enough : chunks.flatten.length < fuel) :
    ∃ split whole : Reader,
      Reader.fresh.receiveAll fuel chunks = .ok (some split) ∧
      Reader.fresh.receive fuel chunks.flatten = .ok (some whole) ∧
      split.messages = whole.messages ∧ split.verdict = whole.verdict ∧
      split.buf.readable = whole.buf.readable := by
  have room : ([] : Bytes).length + chunks.flatten.length < fuel := by
    rwa [List.length_nil, Nat.zero_add]
  obtain ⟨split, received, shown⟩ := Reader.receiveAll_shows Reader.fresh_shows room
  obtain ⟨whole, received', shown'⟩ := Reader.receive_shows Reader.fresh_shows chunks.flatten room
  have same : messageParser.feed ⟨[], false, []⟩ chunks.flatten =
      chunks.foldl messageParser.feed ⟨[], false, []⟩ := by
    rw [messageParser.foldl_feed, ← messageParser.drain_nil, messageParser.feed_drain, List.nil_append]
  rw [same] at shown'
  exact ⟨split, whole, received, received', by rw [shown.messages, shown'.messages],
    by rw [shown.verdict, shown'.verdict], by rw [shown.unread, shown'.unread]⟩

/-- A publication cut inside its command, inside a line end and inside its content, and a
line without a space after it. -/
theorem parseMessage_chunking_publication :
    ∃ split whole : Reader,
      Reader.fresh.receiveAll 40 [[112, 117], [98, 32, 97, 13], [10, 104, 105], [13, 10, 120], [13, 10, 121]] =
        .ok (some split) ∧
      Reader.fresh.receive 40 [112, 117, 98, 32, 97, 13, 10, 104, 105, 13, 10, 120, 13, 10, 121] =
        .ok (some whole) ∧
      split.messages = whole.messages ∧ split.verdict = whole.verdict ∧
      split.buf.readable = whole.buf.readable :=
  parseMessage_chunking [[112, 117], [98, 32, 97, 13], [10, 104, 105], [13, 10, 120], [13, 10, 121]]
    (by decide)

end TransferServer.Pubsub
