import Multipart.Proofs.Message.Steps
import Multipart.Proofs.Part.Content

/-!
# The layout of a message

An `Outline` is what a part sends, apart from how far it has been sent: its header block and its
content. `Sends` lays out the items of the parts that have these outlines, one after another, up to
the closing delimiter or to the first failure. A blocking producer that is asked until it has ended
gives exactly such items.
-/

namespace Multipart

structure Outline where
  block : Bytes
  content : Content
  deriving DecidableEq, Repr

namespace Part

def outline : Part → Outline
  | .scalar p => ⟨p.block.1, .held p.body.1⟩
  | .file p => ⟨p.block.1, p.content⟩

end Part

/-- Items from request `n` on. The delimiter, the header block and each chunk take one request; the
end of a content takes none of its own. -/
inductive Sends (world : World) (delimiter closing : Bytes) : Nat → List Outline → List Item → Prop
  | ended {n} : Sends world delimiter closing n [] [.ok closing]
  | whole {n outline rest chunks items} :
      Renders world (n + 2) outline.content ⟨chunks, none⟩ →
      Sends world delimiter closing (n + 3 + chunks.length) rest items →
      Sends world delimiter closing n (outline :: rest)
        (.ok delimiter :: .ok outline.block :: (chunks.map .ok ++ .ok [0x0D, 0x0A] :: items))
  | cut {n outline rest chunks e} :
      Renders world (n + 2) outline.content ⟨chunks, some e⟩ →
      Sends world delimiter closing n (outline :: rest)
        (.ok delimiter :: .ok outline.block :: (chunks.map .ok ++ [.error e]))

namespace MessageProducer

open Requests

variable {world : World} {producer : MessageProducer} {n i : Nat} {m : Message}

theorem completes_done (reached : after next world producer n = ⟨m, i, .done⟩) :
    Completes next world producer n [] :=
  .of_fixed (fun fs => next_done fs) reached

theorem after_of_pulls {part last : FilePart} {progress : BodyProgress} {rendered : Rendered}
    (pulls : part.Pulls world n progress rendered last) (ended : rendered.failure = none)
    (reached : after next world producer n = ⟨m, i, .body progress⟩)
    (h : m.parts[i]? = some (.file part)) :
    after next world producer (n + rendered.chunks.length + 1) =
      ⟨m.setPart i (.file last), i + 1, .delimiter⟩ := by
  induction pulls generalizing m with
  | ended step => exact (request_eq reached (next_body_end _ h step)).2
  | failed => cases ended
  | chunk step _ ih =>
    have onward := (request_eq reached (next_body_chunk _ h step)).2
    have done := ih ended onward (Message.getElem?_setPart _ h)
    rw [Message.setPart_setPart] at done
    rw [← done, Rendered.add_length_chunks_add]

/-- A body gives its chunks, and after them its failure or what comes after the body. -/
theorem completes_of_pulls {part last : FilePart} {progress : BodyProgress} {rendered : Rendered}
    (pulls : part.Pulls world n progress rendered last)
    (reached : after next world producer n = ⟨m, i, .body progress⟩)
    (h : m.parts[i]? = some (.file part)) (items : List Item)
    (rest : rendered.failure = none →
      Completes next world producer (n + rendered.chunks.length + 1) items) :
    Completes next world producer n (rendered.chunks.map .ok ++
      match rendered.failure with
      | none => .ok HeaderBlock.crlf :: items
      | some e => [.error e]) := by
  induction pulls generalizing m with
  | ended step =>
    exact .cons (request_eq reached (next_body_end _ h step)).1 (rest rfl)
  | failed step =>
    obtain ⟨failed, done⟩ := request_eq reached (next_body_error _ h step)
    exact .cons failed (completes_done done)
  | @chunk n p progress q later octets rendered last step pulls ih =>
    obtain ⟨given, onward⟩ := request_eq reached (next_body_chunk _ h step)
    refine .cons given (ih onward (Message.getElem?_setPart _ h) ?_)
    intro ended
    rw [← Rendered.add_length_chunks_add n octets]
    exact rest ended

/-- Each body that is begun comes to an end or to a failure. -/
def BodiesEnd (world : World) (producer : MessageProducer) : Prop :=
  ∀ n m i part, after next world producer n = ⟨m, i, .body .pending⟩ →
    m.parts[i]? = some (.file part) →
    ∃ rendered last, part.Pulls world n .pending rendered last

/-- The induction is on the parts that are still to come. -/
theorem exists_sends (bodies : BodiesEnd world producer) {remaining : List Part}
    (reached : after next world producer n = ⟨m, i, .delimiter⟩)
    (h : m.parts.drop i = remaining) :
    ∃ items, Sends world m.delimiter m.closing n (remaining.map Part.outline) items ∧
      Completes next world producer n items := by
  induction remaining generalizing n m i with
  | nil =>
    have outside := List.drop_eq_nil_iff.mp h
    obtain ⟨given, done⟩ := request_eq reached (next_closing _ outside)
    exact ⟨_, .ended, .cons given (completes_done done)⟩
  | cons part remaining ih =>
    obtain ⟨here, tail⟩ := Message.getElem?_of_drop h
    have inside := (List.getElem?_eq_some_iff.mp here).1
    obtain ⟨delimiter, atBlock⟩ := request_eq reached (next_delimiter _ inside)
    obtain ⟨block, atContent⟩ := request_eq atBlock (next_block _ here)
    have there := Message.getElem?_setPart part.block.2 here
    cases part with
    | scalar part =>
      obtain ⟨body, atTrailer⟩ := request_eq atContent (next_scalar _ there)
      obtain ⟨trailer, onward⟩ := request_eq atTrailer (next_trailer _)
      rw [Message.setPart_setPart] at onward
      obtain ⟨items, sends, complete⟩ := ih onward ((m.drop_setPart i _).trans tail)
      exact ⟨_, .whole (.held _) sends,
        .cons delimiter (.cons block (.cons body (.cons trailer complete)))⟩
    | file part =>
      obtain ⟨⟨chunks, failure⟩, last, pulls⟩ := bodies _ _ _ _ atContent there
      have complete := completes_of_pulls pulls atContent there
      cases failure with
      | some e => exact ⟨_, .cut pulls.renders, .cons delimiter (.cons block (complete [] nofun))⟩
      | none =>
        have onward := after_of_pulls pulls rfl atContent there
        have number : n + 1 + 1 + chunks.length + 1 = n + 3 + chunks.length := by omega
        rw [Message.setPart_setPart, number] at onward
        obtain ⟨items, sends, rest⟩ := ih onward ((m.drop_setPart i _).trans tail)
        exact ⟨_, .whole pulls.renders sends,
          .cons delimiter (.cons block (complete items fun _ => number ▸ rest))⟩

theorem bodiesEnd_still (fs : FileSystem) (producer : MessageProducer) :
    BodiesEnd (.still fs) producer := by
  intro n m i part reached h
  exact FilePart.Pulls.exists_pending fs n part

end MessageProducer

end Multipart
