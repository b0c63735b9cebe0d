/-!
# Output devices

A sink takes bytes in chunks and may refuse one. A refusal has a reason, and whatever was taken
before, of this chunk or of earlier ones, stays taken.
-/

namespace TypedStack

/-- A device with state `σ`. Both operations return the reason of a refusal, if any, and the new
state. -/
class Sink (σ : Type) where
  /-- Offers a chunk of bytes, all that the program hands over at once. -/
  write : σ → List UInt8 → Option String × σ
  /-- Asks the device to pass on what it took. -/
  flush : σ → Option String × σ

/-- Offers chunks in order, up to the first one that is refused. -/
def Sink.writeAll {σ : Type} [Sink σ] (out : σ) : List (List UInt8) → Option String × σ
  | [] => (none, out)
  | chunk :: chunks =>
    match write out chunk with
    | (none, out) => writeAll out chunks
    | (some reason, out) => (some reason, out)

/-- A sink that keeps what it takes. It may have a capacity, and it may fail to flush. -/
structure Buffer where
  /-- The bytes taken so far. -/
  written : Array UInt8
  /-- How many bytes it takes in total, and why it refuses the next one. -/
  capacity : Option (Nat × String)
  /-- Why it does not flush. -/
  flushRefusal : Option String
deriving DecidableEq, Repr

namespace Buffer

/-- An empty buffer that refuses nothing. -/
def unlimited : Buffer := ⟨#[], none, none⟩

/-- An empty buffer that takes `size` bytes and refuses the next one. -/
def limited (size : Nat) (reason : String) : Buffer := ⟨#[], some (size, reason), none⟩

/-- The bytes taken so far. -/
def bytes (out : Buffer) : List UInt8 := out.written.toList

/-- The same buffer with more bytes in it. -/
def append (out : Buffer) (chunk : List UInt8) : Buffer :=
  { out with written := out.written ++ chunk }

instance : Sink Buffer where
  write out chunk :=
    match out.capacity with
    | none => (none, out.append chunk)
    | some (size, reason) =>
      let room := size - out.written.size
      if chunk.length ≤ room then (none, out.append chunk)
      else (some reason, out.append (chunk.take room))
  flush out := (out.flushRefusal, out)

end Buffer

end TypedStack
