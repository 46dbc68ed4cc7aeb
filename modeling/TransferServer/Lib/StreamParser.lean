import Mathlib.Data.List.Induction

/-! Parsers that read items off the front of a growing stream. Draining a stream whole
and draining it after each arriving chunk agree as soon as a verdict, once given, is
not changed by what arrives later. -/

set_option autoImplicit false

namespace TransferServer.Lib

universe u v

inductive Parsed (Symbol : Type u) (Item : Type v) where
  | more
  | reject
  | item (value : Item) (rest : List Symbol)

structure StreamParser (Symbol : Type u) (Item : Type v) where
  parse : List Symbol → Parsed Symbol Item
  parse_nil : parse [] = .more
  progress : ∀ {text value rest}, parse text = .item value rest → rest.length < text.length
  item_append : ∀ {text value rest}, parse text = .item value rest →
    ∀ later, parse (text ++ later) = .item value (rest ++ later)
  reject_append : ∀ {text}, parse text = .reject → ∀ later, parse (text ++ later) = .reject

/-- The items read so far, whether the stream was rejected, and what is left of it. -/
structure Drained (Symbol : Type u) (Item : Type v) where
  items : List Item
  rejected : Bool
  rest : List Symbol

namespace StreamParser

variable {Symbol : Type u} {Item : Type v}

/-- Parses until the parser asks for more or rejects. -/
def drain (parser : StreamParser Symbol Item) (text : List Symbol) : Drained Symbol Item :=
  match _result : parser.parse text with
  | .more => ⟨[], false, text⟩
  | .reject => ⟨[], true, text⟩
  | .item value rest =>
      let later := parser.drain rest
      ⟨value :: later.items, later.rejected, later.rest⟩
termination_by text.length
decreasing_by exact parser.progress ‹_›

/-- A chunk arrives: after a rejection it only piles up, otherwise the stream is drained again. -/
def feed (parser : StreamParser Symbol Item) (drained : Drained Symbol Item)
    (chunk : List Symbol) : Drained Symbol Item :=
  if drained.rejected then { drained with rest := drained.rest ++ chunk }
  else
    let later := parser.drain (drained.rest ++ chunk)
    ⟨drained.items ++ later.items, later.rejected, later.rest⟩

variable (parser : StreamParser Symbol Item)

theorem drain_more {text : List Symbol} (result : parser.parse text = .more) :
    parser.drain text = ⟨[], false, text⟩ := by
  rw [drain]
  split
  · rfl
  · next other => rw [result] at other; cases other
  · next other => rw [result] at other; cases other

theorem drain_reject {text : List Symbol} (result : parser.parse text = .reject) :
    parser.drain text = ⟨[], true, text⟩ := by
  rw [drain]
  split
  · next other => rw [result] at other; cases other
  · rfl
  · next other => rw [result] at other; cases other

theorem drain_item {text rest : List Symbol} {value : Item}
    (result : parser.parse text = .item value rest) :
    parser.drain text =
      ⟨value :: (parser.drain rest).items, (parser.drain rest).rejected, (parser.drain rest).rest⟩ := by
  rw [drain]
  split
  · next other => rw [result] at other; cases other
  · next other => rw [result] at other; cases other
  · next other =>
      rw [result] at other
      cases other
      rfl

theorem length_drain_rest (text : List Symbol) : (parser.drain text).rest.length ≤ text.length := by
  induction size : text.length using Nat.strongRecOn generalizing text with
  | _ length ih =>
      cases result : parser.parse text with
      | more => exact drain_more parser result ▸ Nat.le_of_eq size
      | reject => exact drain_reject parser result ▸ Nat.le_of_eq size
      | item value rest =>
          have shorter := parser.progress result
          have bound := ih rest.length (size ▸ shorter) rest rfl
          rw [drain_item parser result]
          exact Nat.le_trans bound (Nat.le_of_lt (size ▸ shorter))

theorem length_feed_rest (drained : Drained Symbol Item) (chunk : List Symbol) :
    (parser.feed drained chunk).rest.length ≤ drained.rest.length + chunk.length := by
  rw [← List.length_append]
  unfold feed
  split
  · exact Nat.le_refl _
  · exact length_drain_rest parser _

/-- Draining a stream and then feeding the rest of it is draining the whole stream. The
induction is on the length of what is drained first: each item makes it shorter. -/
theorem feed_drain (text later : List Symbol) :
    parser.feed (parser.drain text) later = parser.drain (text ++ later) := by
  induction size : text.length using Nat.strongRecOn generalizing text with
  | _ length ih =>
      cases result : parser.parse text with
      | more => simp [drain_more parser result, feed]
      | reject =>
          rw [drain_reject parser result, drain_reject parser (parser.reject_append result later)]
          rfl
      | item value rest =>
          have remaining := ih rest.length (size ▸ parser.progress result) rest rfl
          rw [drain_item parser result, drain_item parser (parser.item_append result later),
            ← remaining]
          unfold feed
          dsimp only
          split <;> rfl

theorem drain_nil : parser.drain [] = ⟨[], false, []⟩ :=
  drain_more parser parser.parse_nil

/-- However a stream is cut into chunks, feeding them one by one drains it as a whole. -/
theorem foldl_feed (chunks : List (List Symbol)) :
    chunks.foldl parser.feed ⟨[], false, []⟩ = parser.drain chunks.flatten := by
  induction chunks using List.reverseRecOn with
  | nil => exact (drain_nil parser).symm
  | append_singleton chunks chunk ih =>
      rw [List.foldl_append, ih, List.foldl_cons, List.foldl_nil, feed_drain, List.flatten_append,
        List.flatten_singleton]

end StreamParser

end TransferServer.Lib
