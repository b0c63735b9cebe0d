import TypedStack.Proofs.Agreement
import TypedStack.Proofs.Transcript

/-!
# Listings that read alike

Two listings read alike if they have counted the same lines and have the same answers ahead. They
stay alike under pulls, so machines over them cannot be told apart. What is behind the end of a text
makes no difference to this.
-/

namespace TypedStack

namespace Listing

/-- The listings stand at the same line, and answer alike from there on. -/
structure Alike (l l' : Listing) : Prop where
  line : l.line = l'.line
  ahead : l.ahead = l'.ahead
  lastLine : l.lastLine = l'.lastLine

namespace Alike

variable {l l' : Listing}

/-- Listings that read alike answer any number of pulls alike. -/
lemma pulls (alike : Alike l l') (count : Nat) : pulls count l = pulls count l' := by
  rw [pulls_eq_map, pulls_eq_map, alike.ahead, alike.lastLine]

/-- A pull takes the same answer off what is ahead of both. -/
lemma next (alike : Alike l l') :
    l.next.result = l'.next.result ∧ Alike l.next.source l'.next.source := by
  obtain ⟨last, ahead | ⟨none, exit, finished⟩⟩ := l.next_spec
  · obtain ⟨last', ahead' | ⟨none', -, -⟩⟩ := l'.next_spec
    · have same := ahead.symm.trans (alike.ahead.trans ahead')
      obtain ⟨answer, rest⟩ := List.cons.inj same
      obtain ⟨result, line⟩ := Prod.mk.inj answer
      exact ⟨result, line, rest, last.trans (alike.lastLine.trans last'.symm)⟩
    · cases ahead.symm.trans (alike.ahead.trans none')
  · obtain ⟨last', ahead' | ⟨-, exit', finished'⟩⟩ := l'.next_spec
    · cases none.symm.trans (alike.ahead.trans ahead')
    · have lastLine : l.next.source.lastLine = l'.next.source.lastLine :=
        last.trans (alike.lastLine.trans last'.symm)
      refine ⟨exit.trans exit'.symm, ?_, ?_, lastLine⟩
      · rw [← lastLine_of_finished finished, lastLine, lastLine_of_finished finished']
      · rw [ahead_of_finished finished, ahead_of_finished finished']

end Alike

end Listing

/-- Sources that are listings which read alike. -/
inductive Source.Alike : Source → Source → Prop where
  | intro {l l' : Listing} : l.Alike l' → Source.Alike (.listing l) (.listing l')

/-- Listings that read alike agree as sources. -/
lemma Source.isAgreement_alike : Source.IsAgreement Source.Alike where
  line related := by
    obtain ⟨alike⟩ := related
    exact alike.line
  result related := by
    obtain ⟨alike⟩ := related
    exact alike.next.1
  line_next related := by
    obtain ⟨alike⟩ := related
    exact alike.next.2.line
  next related _ := by
    obtain ⟨alike⟩ := related
    exact .intro alike.next.2

namespace Machine

variable {σ τ : Type} [Sink σ] [Sink τ] {l l' : Listing}

/-- Fresh machines over listings that read alike are in step. -/
lemma inStep_of_alike (alike : l.Alike l') (limit : Option Nat) :
    InStep Source.Alike (start (.listing l) limit) (start (.listing l') limit) :=
  ⟨rfl, rfl, alike.line, fun _ => .intro alike⟩

/-- Machines over listings that read alike make the same runs. -/
lemma runs_of_alike (alike : l.Alike l') (limit : Option Nat) (count : Nat) (out : σ) (err : τ) :
    (runs count (start (.listing l) limit) out err).map observe =
      (runs count (start (.listing l') limit) out err).map observe :=
  (inStep_of_alike alike limit).runs Source.isAgreement_alike count out err

end Machine

end TypedStack
