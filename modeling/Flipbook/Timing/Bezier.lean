import Flipbook.Number.Scalar

namespace Flipbook

variable {α : Type} [Scalar α]

open Scalar

structure Cubic (α : Type) where
  a : α
  b : α
  c : α

def Cubic.ofControl (p q : α) : Cubic α :=
  let c := 3.0 * p
  let b := 3.0 * (q - p) - c
  ⟨1.0 - c - b, b, c⟩

def Cubic.at (f : Cubic α) (u : α) : α := ((f.a * u + f.b) * u + f.c) * u

def Cubic.slope (f : Cubic α) (u : α) : α := (3.0 * f.a * u + 2.0 * f.b) * u + f.c

def Cubic.tolerance : α := 1e-7

def Cubic.isSmall (x : α) : Bool := lt x tolerance && lt (0.0 - tolerance) x

def Cubic.newton? (f : Cubic α) (x : α) : Nat → α → Option α
  | 0, _ => none
  | steps + 1, u =>
    let error := f.at u - x
    if isSmall error then some u
    else
      let slope := f.slope u
      if isSmall slope then none else f.newton? x steps (u - error / slope)

structure Bracket (α : Type) where
  low : α
  high : α
  guess : α

def Bracket.narrow (f : Cubic α) (x : α) (b : Bracket α) : Bracket α :=
  if lt (f.at b.guess) x then ⟨b.guess, b.high, (b.guess + b.high) / 2.0⟩
  else ⟨b.low, b.guess, (b.low + b.guess) / 2.0⟩

def Bracket.close? (f : Cubic α) (x : α) : Nat → Bracket α → Option α
  | 0, _ => none
  | steps + 1, b =>
    if le Cubic.tolerance (b.high - b.low) then
      if Cubic.isSmall (f.at b.guess - x) then some b.guess else (b.narrow f x).close? f x steps
    else some b.guess

def Bracket.steps : Nat := 4096

def Cubic.solve? (f : Cubic α) (x : α) : Option α :=
  match f.newton? x 8 x with
  | some u => some u
  | none => Bracket.close? f x Bracket.steps ⟨0.0, 1.0, x⟩

structure Bezier (α : Type) where
  x1 : α
  y1 : α
  x2 : α
  y2 : α

def Bezier.time (curve : Bezier α) : Cubic α := .ofControl curve.x1 curve.x2

def Bezier.progress (curve : Bezier α) : Cubic α := .ofControl curve.y1 curve.y2

def Bezier.solve (curve : Bezier α) (x : α) : α := (curve.time.solve? x).getD x

def Bezier.ease (curve : Bezier α) (t : α) : α :=
  if le t 0.0 then 0.0 else if le 1.0 t then 1.0 else curve.progress.at (curve.solve t)

end Flipbook
