import Multipart.Message.Whole
import Multipart.Proofs.Message.Layout

/-!
# The octets of a message

While files stay as they are, each content has its octets or the reason why there are none, and with
them the whole message has. A blocking producer gives these octets in pieces, and `Message.encode`
gives them at once.
-/

namespace Multipart

section Items

@[simp] theorem joinItems_nil : joinItems [] = .ok [] := rfl

@[simp] theorem joinItems_ok_cons (chunk : Bytes) (items : List Item) :
    joinItems (.ok chunk :: items) = (joinItems items).map (chunk ++ ·) := by
  simp only [joinItems, List.mapM_cons, id]
  cases items.mapM id <;> rfl

@[simp] theorem joinItems_error_cons (e : EncodingError) (items : List Item) :
    joinItems (.error e :: items) = .error e := rfl

theorem joinItems_chunks_append (chunks : List Bytes) (items : List Item) :
    joinItems (chunks.map .ok ++ items) = (joinItems items).map (chunks.flatten ++ ·) := by
  induction chunks with
  | nil => cases joined : joinItems items <;> simp [joined, Except.map]
  | cons chunk chunks ih =>
    rw [List.map_cons, List.cons_append, joinItems_ok_cons, ih, List.flatten_cons]
    cases joinItems items <;> simp [Except.map]

/-- What items come to in the end: all chunks in a row, or the first failure. -/
inductive Joins : List Item → Except EncodingError Bytes → Prop
  | chunks (chunks : List Bytes) : Joins (chunks.map .ok) (.ok chunks.flatten)
  | failure (chunks : List Bytes) (e : EncodingError) (rest : List Item) :
    Joins (chunks.map .ok ++ .error e :: rest) (.error e)

theorem joins_joinItems (items : List Item) : Joins items (joinItems items) := by
  induction items with
  | nil => exact .chunks []
  | cons item items ih =>
    cases item with
    | error e => exact .failure [] e items
    | ok chunk =>
      rw [joinItems_ok_cons]
      generalize joinItems items = joined at ih ⊢
      cases ih with
      | chunks chunks => exact .chunks (chunk :: chunks)
      | failure chunks e rest => exact .failure (chunk :: chunks) e rest

end Items

namespace Outline

/-- The header block, and all of the body. -/
def outcome (fs : FileSystem) (o : Outline) : Except EncodingError (Bytes × Bytes) :=
  (o.content.outcome fs).map (o.block, ·)

/-- No more items than this belong to a part. -/
def bound (fs : FileSystem) (o : Outline) : Nat := o.content.bound fs + 3

end Outline

/-- Parts, each given by its header block and its body, one after another. -/
def frame (delimiter closing : Bytes) (parts : List (Bytes × Bytes)) : Bytes :=
  (parts.flatMap fun (block, body) => delimiter ++ block ++ body ++ HeaderBlock.crlf) ++ closing

@[simp] theorem frame_nil (delimiter closing : Bytes) : frame delimiter closing [] = closing := rfl

@[simp] theorem frame_cons (delimiter closing block body : Bytes) (parts : List (Bytes × Bytes)) :
    frame delimiter closing ((block, body) :: parts) =
      delimiter ++ (block ++ (body ++ (HeaderBlock.crlf ++ frame delimiter closing parts))) := by
  simp [frame]

namespace Sends

variable {fs : FileSystem} {delimiter closing : Bytes} {n : Nat} {outlines : List Outline}
  {items : List Item}

theorem joinItems_eq (sends : Sends (.still fs) delimiter closing n outlines items) :
    joinItems items = (outlines.mapM (Outline.outcome fs)).map (frame delimiter closing) := by
  induction sends with
  | ended => simp [Except.map, pure, Except.pure]
  | @whole n outline rest chunks items renders _ ih =>
    have body : outline.outcome fs = .ok (outline.block, chunks.flatten) := by
      rw [Outline.outcome, ← renders.outcome_eq]
      rfl
    rw [joinItems_ok_cons, joinItems_ok_cons, joinItems_chunks_append, joinItems_ok_cons, ih,
      List.mapM_cons, body]
    cases rest.mapM (Outline.outcome fs) with
    | error e => rfl
    | ok parts => simp [Except.map, bind, Except.bind, pure, Except.pure, HeaderBlock.crlf]
  | @cut n outline rest chunks e renders =>
    have body : outline.outcome fs = .error e := by
      rw [Outline.outcome, ← renders.outcome_eq]
      rfl
    rw [joinItems_ok_cons, joinItems_ok_cons, joinItems_chunks_append, joinItems_error_cons,
      List.mapM_cons, body]
    rfl

theorem length_le (sends : Sends (.still fs) delimiter closing n outlines items) :
    items.length ≤ outlines.foldr (fun o n => o.bound fs + n) 1 := by
  induction sends with
  | ended => exact Nat.le_refl 1
  | @whole n outline rest chunks items renders _ ih =>
    have few : outline.bound fs = outline.content.bound fs + 3 := rfl
    have body := renders.length_items_le
    simp only [Rendered.items, Option.toList_none, List.map_nil, List.append_nil, List.length_map]
      at body
    simp only [List.length_cons, List.length_append, List.length_map, List.foldr_cons]
    omega
  | @cut n outline rest chunks e renders =>
    have few : outline.bound fs = outline.content.bound fs + 3 := rfl
    have body := renders.length_items_le
    simp only [Rendered.items, Option.toList_some, List.map_cons, List.map_nil,
      List.length_append, List.length_map, List.length_cons, List.length_nil] at body
    simp only [List.length_cons, List.length_append, List.length_map, List.length_nil,
      List.foldr_cons]
    omega

end Sends

namespace Message

variable (fs : FileSystem) (m : Message)

/-- All octets of a message, or the failure that they are cut short by. -/
def outcome : Except EncodingError Bytes :=
  ((m.parts.map Part.outline).mapM (Outline.outcome fs)).map (frame m.delimiter m.closing)

end Message

theorem FilePart.bound_content_le (fs : FileSystem) (p : FilePart) :
    p.content.bound fs ≤ p.source.extent fs + 1 := by
  unfold FilePart.content
  split
  · simp [Content.bound]
  · exact Content.bound_ofSource_le fs p.chunkSize p.source

theorem Part.bound_outline_le (fs : FileSystem) (part : Part) :
    part.outline.bound fs ≤ part.itemBound fs := by
  cases part with
  | scalar p => exact Nat.le_refl 4
  | file p =>
    have few := p.bound_content_le fs
    simp only [Part.outline, Outline.bound, Part.itemBound, FilePart.itemBound]
    omega

theorem Message.bound_outlines_lt (fs : FileSystem) (m : Message) :
    (m.parts.map Part.outline).foldr (fun o n => o.bound fs + n) 1 < m.itemBound fs := by
  rw [Message.itemBound]
  induction m.parts with
  | nil => exact Nat.lt_succ_self 1
  | cons part parts ih =>
    have few := part.bound_outline_le fs
    simp only [List.map_cons, List.foldr_cons]
    omega

namespace MessageProducer

open Requests

variable (fs : FileSystem) (m : Message)

/-- While files stay as they are, a producer comes to its end, and what it has given are the octets
of the message. -/
theorem exists_completes_still :
    ∃ items, Completes next (.still fs) { message := m } 0 items ∧
      items.length < m.itemBound fs ∧ joinItems items = m.outcome fs := by
  obtain ⟨items, sends, complete⟩ := exists_sends (n := 0) (m := m) (i := 0)
    (bodiesEnd_still fs { message := m }) rfl rfl
  exact ⟨items, complete, Nat.lt_of_le_of_lt sends.length_le (m.bound_outlines_lt fs),
    sends.joinItems_eq⟩

theorem joinItems_run :
    (run fs { message := m }).value.ended = true ∧
      joinItems (run fs { message := m }).value.items = m.outcome fs := by
  obtain ⟨items, complete, few, joined⟩ := exists_completes_still fs m
  obtain ⟨taken, ended⟩ := collect_of_completes complete (m.itemBound fs)
  rw [List.take_of_length_le (Nat.le_of_lt few)] at taken
  refine ⟨ended.trans (decide_eq_true few), ?_⟩
  rw [run, taken, joined]

end MessageProducer

end Multipart
