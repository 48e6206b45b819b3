/-
Module: Plotline.Generator
Layer: Machine
Purpose: A source of random numbers: a fixed stream of 64-bit words and how many of them have been drawn.
  Any stream will do for a program. The seeded streams mix a counter with a seed.
Main exports: Generator, Generator.draw, Generator.uniform, Generator.seeded, Generator.constant
-/

namespace Plotline

/-- A random generator. -/
structure Generator where
  stream : Nat → UInt64
  drawn : Nat := 0

namespace Generator

/-- Draws the next word. -/
def draw (g : Generator) : UInt64 × Generator :=
  (g.stream g.drawn, { g with drawn := g.drawn + 1 })

/-- The upper 53 bits of a word as a fraction, at least zero and less than one. -/
def fraction (word : UInt64) : Float :=
  (word >>> 11).toFloat / 9007199254740992.0

/-- Draws a number from zero up to one. -/
def uniform (g : Generator) : Float × Generator :=
  let (word, next) := g.draw
  (fraction word, next)

/-- The generator whose every word is the same. -/
def constant (word : UInt64) : Generator :=
  { stream := fun _ => word }

/-- Spreads the bits of a word, so that counting up gives words without visible order. -/
def mix (word : UInt64) : UInt64 :=
  let word := (word ^^^ (word >>> 30)) * 0xBF58476D1CE4E5B9
  let word := (word ^^^ (word >>> 27)) * 0x94D049BB133111EB
  word ^^^ (word >>> 31)

/-- The generator that belongs to a seed. -/
def seeded (seed : UInt64) : Generator :=
  { stream := fun n => mix (seed + UInt64.ofNat (n + 1) * 0x9E3779B97F4A7C15) }

instance : Inhabited Generator := ⟨constant 0⟩

end Generator

end Plotline
