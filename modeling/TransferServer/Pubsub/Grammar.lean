import TransferServer.Pubsub.CodecProperties

/-! The messages as a grammar. A readable content starts with a message in one way at
most, and `parseMessage` finds it exactly where there is one. -/

set_option autoImplicit false

namespace TransferServer.Pubsub

open Lib Net

/-- `text` is `line ++ "\r\n" ++ rest`, cut at its first line end. -/
structure Line (text line rest : Bytes) : Prop where
  split : text = line ++ Buffer.kCRLF ++ rest
  unbroken : ¬ Buffer.kCRLF <:+: line

/-- A message in front of `rest`: a line with a space in it and, behind the command
`"pub"`, one line more. -/
inductive Splits (text cmd topic : Bytes) : Option Bytes → Bytes → Prop where
  | command {rest : Bytes} (line : Line text (cmd ++ kSpace :: topic) rest) (word : kSpace ∉ cmd)
      (other : cmd ≠ kPub) : Splits text cmd topic none rest
  | publication {after content rest : Bytes} (line : Line text (cmd ++ kSpace :: topic) after)
      (word : kSpace ∉ cmd) (isPub : cmd = kPub) (body : Line after content rest) :
      Splits text cmd topic (some content) rest

/-- A line that is complete and has no space in it. -/
def Unspaced (text : Bytes) : Prop :=
  ∃ line rest, Line text line rest ∧ kSpace ∉ line

theorem Line.search_eq {text line rest : Bytes} (cut : Line text line rest) :
    search Buffer.kCRLF text = some line.length ∧ text.take line.length = line ∧
      text.drop (line.length + 2) = rest := by
  obtain ⟨rfl, unbroken⟩ := cut
  refine ⟨search_pair (by decide) unbroken rest, ?_, ?_⟩
  · rw [List.append_assoc, List.take_left]
  · rw [← List.drop_drop, List.append_assoc, List.drop_left]
    rfl

theorem line_of_search {text : Bytes} {eol : Nat} (found : search Buffer.kCRLF text = some eol) :
    Line text (text.take eol) (text.drop (eol + 2)) := by
  obtain ⟨split, unbroken⟩ := search_cuts (by decide) found
  exact ⟨split, unbroken⟩

/-- A line is cut at its first space as the message is. -/
theorem word_split {cmd : Bytes} (word : kSpace ∉ cmd) (topic : Bytes) :
    (cmd ++ kSpace :: topic).findIdx (· == kSpace) = cmd.length ∧
      cmd.length < (cmd ++ kSpace :: topic).length ∧
      (cmd ++ kSpace :: topic).take cmd.length = cmd ∧
      (cmd ++ kSpace :: topic).drop (cmd.length + 1) = topic := by
  refine ⟨findIdx_eq_length word topic, ?_, List.take_left, ?_⟩
  · rw [List.length_append, List.length_cons]
    omega
  · rw [← List.drop_drop, List.drop_left]
    rfl

/-- What the grammar derives, the parser reads. -/
theorem parseText_of_splits {text cmd topic rest : Bytes} {content : Option Bytes}
    (splits : Splits text cmd topic content rest) :
    parseText text = .item ⟨cmd, topic, content.getD []⟩ rest := by
  cases splits with
  | command line word other =>
      obtain ⟨found, taken, dropped⟩ := line.search_eq
      obtain ⟨space, spaced, cmdTaken, topicDropped⟩ := word_split word topic
      simp only [parseText, found, taken, dropped, space, cmdTaken, topicDropped, if_pos spaced,
        if_neg other]
      rfl
  | publication line word isPub body =>
      obtain ⟨found, taken, dropped⟩ := line.search_eq
      obtain ⟨space, spaced, cmdTaken, topicDropped⟩ := word_split word topic
      obtain ⟨found', taken', dropped'⟩ := body.search_eq
      simp only [parseText, found, taken, dropped, space, cmdTaken, topicDropped, if_pos spaced,
        if_pos isPub, found', taken', dropped']
      rfl

/-- What the parser reads, the grammar derives. -/
theorem splits_of_parseText {text rest : Bytes} {message : Message}
    (parsed : parseText text = .item message rest) :
    Splits text message.cmd message.topic
      (if message.cmd = kPub then some message.content else none) rest := by
  unfold parseText at parsed
  cases found : search Buffer.kCRLF text with
  | none => simp [found] at parsed
  | some eol =>
      have line := line_of_search found
      have lineLength : (text.take eol).length = eol := by
        have bound := search_bound found
        rw [List.length_take]
        omega
      simp only [found] at parsed
      by_cases spaced : (text.take eol).findIdx (· == kSpace) < eol
      · obtain ⟨split, word⟩ := findIdx_cuts (Nat.lt_of_lt_of_eq spaced lineLength.symm)
        rw [if_pos spaced] at parsed
        generalize (text.take eol).findIdx (· == kSpace) = space at *
        rw [split] at line
        by_cases isPub : (text.take eol).take space = kPub
        · rw [if_pos isPub] at parsed
          cases content : search Buffer.kCRLF (text.drop (eol + 2)) with
          | none => simp [content] at parsed
          | some stop =>
              simp only [content] at parsed
              cases parsed
              rw [if_pos isPub]
              exact .publication line word isPub (line_of_search content)
        · rw [if_neg isPub] at parsed
          cases parsed
          rw [if_neg isPub]
          exact .command line word isPub
      · rw [if_neg spaced] at parsed
        cases parsed

theorem parseText_eq_reject_iff {text : Bytes} : parseText text = .reject ↔ Unspaced text := by
  constructor
  · intro parsed
    unfold parseText at parsed
    cases found : search Buffer.kCRLF text with
    | none => simp [found] at parsed
    | some eol =>
        have bound := search_bound found
        simp only [found] at parsed
        by_cases spaced : (text.take eol).findIdx (· == kSpace) < eol
        · rw [if_pos spaced] at parsed
          split at parsed
          · split at parsed <;> cases parsed
          · cases parsed
        · refine ⟨_, _, line_of_search found, fun present => spaced ?_⟩
          refine Nat.lt_of_lt_of_le (List.findIdx_lt_length_of_exists ?_) (List.length_take_le _ _)
          exact ⟨kSpace, present, by simp⟩
  · rintro ⟨line, rest, cut, unspaced⟩
    obtain ⟨found, taken, _⟩ := cut.search_eq
    have none : ¬ line.findIdx (· == kSpace) < line.length := by
      rw [List.findIdx_lt_length]
      simpa using unspaced
    simp only [parseText, found, taken, if_neg none]

theorem Splits.unique {text cmd cmd' topic topic' rest rest' : Bytes} {content content' : Option Bytes}
    (left : Splits text cmd topic content rest) (right : Splits text cmd' topic' content' rest') :
    cmd = cmd' ∧ topic = topic' ∧ content = content' ∧ rest = rest' := by
  have read := parseText_of_splits left
  rw [parseText_of_splits right] at read
  simp only [Parsed.item.injEq, Message.mk.injEq] at read
  obtain ⟨⟨rfl, rfl, same⟩, rfl⟩ := read
  refine ⟨rfl, rfl, ?_, rfl⟩
  cases left with
  | command _ _ other =>
      cases right with
      | command => rfl
      | publication _ _ isPub _ => exact absurd isPub other
  | publication _ _ isPub _ =>
      cases right with
      | command _ _ other => exact absurd isPub other
      | publication => exact congrArg some same.symm

/-- The out parameters of the call before only show where this call writes none. -/
theorem parseMessage_out {buf after : Buffer} {result : ParseResult} {message : Message}
    (called : parseMessage buf .empty = .ok (result, message, after)) (out : Message) :
    ∃ message', parseMessage buf out = .ok (result, message', after) ∧
      (result = .kSuccess → message' = { message with
        content := if message.cmd = kPub then message.content else out.content }) := by
  unfold parseMessage at called ⊢
  cases found : buf.findCRLF with
  | none =>
      simp only [found] at called ⊢
      cases called
      exact ⟨out, rfl, fun success => by cases success⟩
  | some crlf =>
      simp only [found] at called ⊢
      by_cases spaced : find buf.buffer buf.peek crlf kSpace ≠ crlf
      · rw [if_pos spaced] at called ⊢
        by_cases isPub : segment buf.buffer buf.peek (find buf.buffer buf.peek crlf kSpace) = kPub
        · rw [if_pos isPub] at called ⊢
          obtain ⟨next, searched, called⟩ := bind_eq_ok.mp called
          rw [searched, ok_bind]
          cases next with
          | none =>
              cases called
              exact ⟨_, rfl, fun success => by cases success⟩
          | some stop =>
              obtain ⟨rest, retrieved, called⟩ := bind_eq_ok.mp called
              cases called
              simp only [retrieved, ok_bind]
              exact ⟨_, rfl, fun _ => by simp only [if_pos isPub]⟩
        · rw [if_neg isPub] at called ⊢
          obtain ⟨rest, retrieved, called⟩ := bind_eq_ok.mp called
          cases called
          simp only [retrieved, ok_bind]
          exact ⟨_, rfl, fun _ => by simp only [if_neg isPub]⟩
      · rw [if_neg spaced] at called ⊢
        cases called
        exact ⟨out, rfl, fun success => by cases success⟩

/-- What the parser takes nothing from has no derivation. -/
theorem not_derived {text : Bytes} (rejected : ∀ message rest, parseText text ≠ .item message rest) :
    ¬ ∃ cmd topic content rest, Splits text cmd topic content rest := by
  rintro ⟨cmd, topic, content, rest, splits⟩
  exact rejected _ _ (parseText_of_splits splits)

/-- `parseMessage` accepts exactly the grammar. Its out parameters are the parts of the
only derivation and what is left readable is what follows it; it reports an error
exactly on a complete line without a space, and then, as when it asks for more, leaves
the buffer as it was. -/
theorem parseMessage_grammar {buf : Buffer} (valid : buf.Valid) (out : Message) :
    ∃ result message after, parseMessage buf out = .ok (result, message, after) ∧
      (result = .kSuccess ↔ ∃ cmd topic content rest, Splits buf.readable cmd topic content rest) ∧
      (∀ cmd topic content rest, Splits buf.readable cmd topic content rest →
        message = ⟨cmd, topic, content.getD out.content⟩ ∧ after.readable = rest ∧
        ∀ cmd' topic' content' rest', Splits buf.readable cmd' topic' content' rest' →
          cmd' = cmd ∧ topic' = topic ∧ content' = content ∧ rest' = rest) ∧
      (result = .kError ↔ Unspaced buf.readable) ∧
      (result = .kContinue ↔ ¬ (∃ cmd topic content rest,
        Splits buf.readable cmd topic content rest) ∧ ¬ Unspaced buf.readable) ∧
      (result ≠ .kSuccess → after = buf) := by
  have called := parseMessage_spec valid
  rw [← parseText_eq_reject_iff]
  cases parsed : parseText buf.readable with
  | more =>
      have rejected : ∀ message rest, parseText buf.readable ≠ .item message rest := by simp [parsed]
      have none := not_derived rejected
      rw [parsed] at called
      obtain ⟨message, called⟩ := called
      obtain ⟨message', called, _⟩ := parseMessage_out called out
      refine ⟨.kContinue, message', buf, called, by simpa using none, ?_, by simp, by simpa using none,
        fun _ => rfl⟩
      exact fun cmd topic content rest splits => absurd ⟨cmd, topic, content, rest, splits⟩ none
  | reject =>
      have rejected : ∀ message rest, parseText buf.readable ≠ .item message rest := by simp [parsed]
      have none := not_derived rejected
      rw [parsed] at called
      obtain ⟨message', called, _⟩ := parseMessage_out called out
      refine ⟨.kError, message', buf, called, by simpa using none, ?_, by simp, by simp, fun _ => rfl⟩
      exact fun cmd topic content rest splits => absurd ⟨cmd, topic, content, rest, splits⟩ none
  | item message rest =>
      have splits := splits_of_parseText parsed
      rw [parsed] at called
      obtain ⟨after, called, _, remaining⟩ := called
      obtain ⟨message', called, written⟩ := parseMessage_out called out
      have there : ∃ cmd topic content rest, Splits buf.readable cmd topic content rest :=
        ⟨_, _, _, _, splits⟩
      refine ⟨.kSuccess, message', after, called, by simpa using there, ?_, by simp, by simp [there],
        fun failed => absurd rfl failed⟩
      intro cmd topic content rest' splits'
      obtain ⟨rfl, rfl, rfl, rfl⟩ := splits'.unique splits
      refine ⟨?_, remaining, fun cmd' topic' content' rest' other => other.unique splits'⟩
      rw [written rfl]
      by_cases isPub : message.cmd = kPub <;> simp [isPub]

/-- The theorem on a content with a carriage return before its line end. -/
theorem parseMessage_grammar_publication :
    ∃ buf : Buffer, ∃ result message after,
      parseMessage buf ⟨[], [], [7]⟩ = .ok (result, message, after) ∧
      result = .kSuccess ∧ message = ⟨kPub, [97, 32], [10, 13]⟩ ∧ after.readable = [120] := by
  let text : Bytes := kPub ++ [32, 97, 32, 13, 10, 10, 13, 13, 10, 120]
  obtain ⟨buf, _, valid, same⟩ := Buffer.append_spec Buffer.fresh_valid text
  rw [Buffer.readable_fresh, List.nil_append] at same
  have line : Line text (kPub ++ kSpace :: [97, 32]) [10, 13, 13, 10, 120] := ⟨rfl, by decide⟩
  have body : Line [10, 13, 13, 10, 120] [10, 13] [120] := ⟨rfl, by decide⟩
  have splits : Splits buf.readable kPub [97, 32] (some [10, 13]) [120] := by
    rw [same]
    exact .publication line (by decide) rfl body
  obtain ⟨result, message, after, called, accepts, parts, _⟩ :=
    parseMessage_grammar valid ⟨[], [], [7]⟩
  obtain ⟨written, remaining, _⟩ := parts _ _ _ _ splits
  exact ⟨buf, result, message, after, called, accepts.mpr ⟨_, _, _, _, splits⟩, written, remaining⟩

end TransferServer.Pubsub
