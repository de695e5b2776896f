import Descent.Model.Classic
import Descent.Model.Counted
import Descent.Model.Problem
import Descent.Model.QuasiNewton
import Descent.Model.Scaled

/-!
# Layered models

A model with the layers around it. The layers determine the state that the model needs, and each can
be asked for what it keeps; where there are several layers of a kind, the outermost one answers.
-/

set_option autoImplicit false

namespace Descent

/-- A model at the core, with layers around it. -/
inductive Layered (α : Type) [Scalar α] where
  | plain (m : Model α Unit)
  | problem (p : Problem α)
  | quadratic (q : Classic.Quadratic α)
  | counted (inner : Layered α)
  | scaled (c : Scaling) (inner : Layered α)
  /-- Curvature is learned into the history, which starts as given. -/
  | quasiNewton (h : History α) (inner : Layered α)

namespace Layered

variable {α : Type} [Scalar α]

def State : Layered α → Type
  | plain _ | problem _ | quadratic _ => Unit
  | counted m => Counts × m.State
  | scaled _ m => m.State
  | quasiNewton _ m => History α × m.State

def initial : (m : Layered α) → m.State
  | plain _ | problem _ | quadratic _ => ()
  | counted m => ({}, m.initial)
  | scaled _ m => m.initial
  | quasiNewton h m => (h, m.initial)

def model : (m : Layered α) → Model α m.State
  | plain m => m
  | problem p => p.model
  | quadratic q => q.model
  | counted m => m.model.counted
  | scaled c m => m.model.scaled c
  | quasiNewton _ m => m.model.quasiNewton

def counts? : (m : Layered α) → m.State → Option Counts
  | plain _, _ | problem _, _ | quadratic _, _ => none
  | counted _, (c, _) => some c
  | scaled _ m, s => m.counts? s
  | quasiNewton _ m, (_, s) => m.counts? s

def resetCounts : (m : Layered α) → m.State → m.State
  | plain _, s | problem _, s | quadratic _, s => s
  | counted _, (_, s) => ({}, s)
  | scaled _ m, s => m.resetCounts s
  | quasiNewton _ m, (h, s) => (h, m.resetCounts s)

def history? : (m : Layered α) → m.State → Option (History α)
  | plain _, _ | problem _, _ | quadratic _, _ => none
  | counted m, (_, s) => m.history? s
  | scaled _ m, s => m.history? s
  | quasiNewton _ _, (h, _) => some h

def clearHistory : (m : Layered α) → m.State → m.State
  | plain _, s | problem _, s | quadratic _, s => s
  | counted m, (c, s) => (c, m.clearHistory s)
  | scaled _ m, s => m.clearHistory s
  | quasiNewton _ _, (h, s) => (h.clear, s)

def pairs? (m : Layered α) (s : m.State) : Option Nat := (m.history? s).map fun h => h.pairs.length

def scaling? : Layered α → Option Scaling
  | plain _ | problem _ | quadratic _ => none
  | counted m | quasiNewton _ m => m.scaling?
  | scaled c _ => some c

def problem? : Layered α → Option (Problem α)
  | plain _ | quadratic _ => none
  | problem p => some p
  | counted m | scaled _ m | quasiNewton _ m => m.problem?

def quadratic? : Layered α → Option (Classic.Quadratic α)
  | plain _ | problem _ => none
  | quadratic q => some q
  | counted m | scaled _ m | quasiNewton _ m => m.quadratic?

end Layered

end Descent
