import Mathlib.Data.List.Forall2
import Descent.Derivatives
import Descent.Proofs.Safe

/-!
# What a derivative check reports

A check compares component by component, or column by column, and what becomes of each is an
`Except`: entries, or the text of an error. The report lists the values and the errors among these
in their order (`foldl_addComponent`, `foldl_addColumn`), so that whatever holds of each component
holds of the report. Here are also the rules for the evaluations that a check makes:
`checkCoordinate_triple` for one coordinate, `checkGradient_triple` for all of them.
-/

set_option autoImplicit false

namespace Descent

open Run

namespace Run

variable {σ β γ : Type}

/-- A check that has passed hands on its value. -/
theorem ok_bind (b : β) (f : β → Run σ γ) :
    ((liftM (Except.ok b : Checked β) : Run σ β) >>= f) = f b := rfl

/-- One computation for each entry of a list, each from where the one before it ended. -/
theorem Triple.mapM {f : β → Run σ γ} {I : List β → σ → Prop} {R : β → γ → Prop} {F : σ → Prop}
    {l : List β}
    (h : ∀ before, ∀ b ∈ l, Triple (I before) (f b) (fun c s => I (before ++ [b]) s ∧ R b c) F)
    (before : List β) :
    Triple (I before) (l.mapM f) (fun cs s => I (before ++ l) s ∧ List.Forall₂ R l cs) F := by
  induction l generalizing before with
  | nil => exact Triple.pure fun s hs => ⟨by rwa [List.append_nil], .nil⟩
  | cons b l ih =>
      rw [List.mapM_cons]
      refine Triple.bind (h before b (List.mem_cons_self ..)) fun c => Triple.assume fun hc => ?_
      refine Triple.bind (ih (fun before b' hb' => h before b' (List.mem_cons_of_mem _ hb'))
        (before ++ [b])) fun cs => Triple.assume fun hcs => ?_
      refine Triple.pure fun s hs => ⟨?_, .cons hc hcs⟩
      rwa [List.append_assoc, List.singleton_append] at hs

end Run

namespace Derivatives

/-! ## Outcomes -/

section Outcomes

variable {ε β : Type}

def values (l : List (Except ε β)) : List β := l.filterMap Except.toOption

def errors (l : List (Except ε β)) : List ε := l.filterMap fun
  | .ok _ => none
  | .error e => some e

@[simp] theorem values_nil : values ([] : List (Except ε β)) = [] := rfl

@[simp] theorem values_ok (b : β) (l : List (Except ε β)) :
    values (.ok b :: l) = b :: values l := rfl

@[simp] theorem values_error (e : ε) (l : List (Except ε β)) :
    values (.error e :: l) = values l := rfl

@[simp] theorem errors_nil : errors ([] : List (Except ε β)) = [] := rfl

@[simp] theorem errors_ok (b : β) (l : List (Except ε β)) : errors (.ok b :: l) = errors l := rfl

@[simp] theorem errors_error (e : ε) (l : List (Except ε β)) :
    errors (.error e :: l) = e :: errors l := rfl

@[simp] theorem values_map_ok (l : List β) : values (l.map (Except.ok (ε := ε))) = l := by
  induction l with
  | nil => rfl
  | cons b l ih => rw [List.map_cons, values_ok, ih]

@[simp] theorem errors_map_ok (l : List β) : errors (l.map (Except.ok (ε := ε))) = [] := by
  induction l with
  | nil => rfl
  | cons b l ih => rw [List.map_cons, errors_ok, ih]

theorem mem_values {l : List (Except ε β)} {b : β} : b ∈ values l ↔ .ok b ∈ l := by
  induction l with
  | nil => simp
  | cons o l ih => cases o <;> simp [ih]

end Outcomes

variable {α σ : Type} [Scalar α]

/-! ## Reports -/

theorem Report.passed_iff {r : Report α} :
    r.passed = true ↔ r.errors = [] ∧ ∀ e ∈ r.entries, e.relativeError ≤ r.tolerance := by
  simp [passed, accepts]

namespace Checker

omit [Scalar α] in
/-- The report lists the entries and the errors among the components. -/
theorem foldl_addComponent (components : List (Except String (Entry α))) (r : Report α) :
    components.foldl addComponent r = { r with
      entries := r.entries ++ values components
      errors := r.errors ++ errors components } := by
  induction components generalizing r with
  | nil => simp
  | cons component components ih => cases component <;> simp [ih, addComponent]

/-- The report on one product: its entries, or the one error. -/
def single (c : Checker α) (kind : Kind) : Except String (List (Entry α)) → Report α
  | .ok entries => { kind, entries, tolerance := c.tolerance }
  | .error e => c.failed kind e

/-- What a product with coordinate vector `j` of `n` says about column `j`. -/
def inColumn (n : Nat) : Except String (List (Entry α)) × Nat → Except String (List (Entry α))
  | (.ok entries, j) => .ok (entries.map fun e => { e with index := e.index * n + j })
  | (.error e, j) => .error s!"column {j}: {e}"

/-- The report lists the entries and the errors among the columns. -/
theorem foldl_addColumn (c : Checker α) (kind : Kind) (n : Nat)
    (products : List (Except String (List (Entry α)))) (k : Nat) (r : Report α) :
    ((products.map (c.single kind)).zipIdx k).foldl (addColumn n) r = { r with
      entries := r.entries ++ (values ((products.zipIdx k).map (inColumn n))).flatten
      errors := r.errors ++ errors ((products.zipIdx k).map (inColumn n)) } := by
  induction products generalizing k r with
  | nil => simp
  | cons product products ih =>
      rw [List.map_cons, List.zipIdx_cons, List.foldl_cons, ih]
      cases product <;> simp [single, failed, inColumn, addColumn]

/-- To note a report changes nothing but the journal. -/
theorem note_triple {P F : σ → Prop} (m : Model α σ) (r : Report α) :
    Triple P (note m r) (fun _ => P) F := by
  unfold note
  split
  · exact Triple.emit
  · exact Triple.emit

/-! ## One coordinate -/

/-- The first of the two points at which the objective is evaluated for coordinate `i`: only there
they differ from `x`, by the step. -/
def ahead (c : Checker α) (x : Vec α) (i : Nat) : Vec α :=
  x.set i (x.getD i 0 + c.stepFor (x.getD i 0))

def behind (c : Checker α) (x : Vec α) (i : Nat) : Vec α :=
  x.set i (x.getD i 0 - c.stepFor (x.getD i 0))

/-- What becomes of coordinate `i`, given what became of the two evaluations. -/
def component (c : Checker α) (x g : Vec α) (i : Nat) :
    Except ModelError α → Except ModelError α → Except String (Entry α)
  | .ok ahead, .ok behind =>
    .ok (.compare i (g.getD i 0) ((ahead - behind) / (2.0 * c.stepFor (x.getD i 0))))
  | .error e, _ | .ok _, .error e => .error (s!"coordinate {i}: " ++ e.message)

theorem entryAt_eq_getD {x : Vec α} {i : Nat} (hi : i < x.length) :
    entryAt x i = .ok (x.getD i 0) := by
  rw [entryAt_of_lt hi, List.getD_eq_getElem?_getD, List.getElem?_eq_getElem hi, Option.getD_some]

/-- Both evaluations are made, and the component is made of what becomes of them. -/
theorem checkCoordinate_triple {c : Checker α} {m : Model α σ} {x g : Vec α} {i : Nat}
    {P P' P'' F : σ → Prop} {A B : Except ModelError α → Prop} (hx : i < x.length)
    (hg : i < g.length)
    (hahead : Triple P (Run.outcome (m.objective (c.ahead x i))) (fun r s => P' s ∧ A r) F)
    (hbehind : Triple P' (Run.outcome (m.objective (c.behind x i))) (fun r s => P'' s ∧ B r) F) :
    Triple P (c.checkCoordinate m x g i)
      (fun r s => P'' s ∧ ∃ f b, A f ∧ B b ∧ r = c.component x g i f b) F := by
  unfold checkCoordinate
  rw [entryAt_eq_getD hx, entryAt_eq_getD hg, ok_bind]
  refine Triple.bind hahead fun f => Triple.assume fun hf => ?_
  refine Triple.bind hbehind fun b => Triple.assume fun hb => ?_
  refine Triple.post (Q := fun r s => P'' s ∧ r = c.component x g i f b) ?_
    fun r s hs => ⟨hs.1, f, b, hf, hb, hs.2⟩
  cases f with
  | error e => exact Triple.pure fun s hs => ⟨hs, rfl⟩
  | ok ahead =>
      cases b with
      | error e => exact Triple.pure fun s hs => ⟨hs, rfl⟩
      | ok behind => exact Triple.pure fun s hs => ⟨hs, rfl⟩

/-! ## All coordinates -/

def gathered (c : Checker α) (components : List (Except String (Entry α))) : Report α :=
  { kind := .gradient
    entries := values components
    errors := errors components
    tolerance := c.tolerance }

omit [Scalar α] in
theorem lengthError_self (what : String) (n : Nat) : lengthError what n n = none := if_pos rfl

/-- A check of the gradient fails with it, or with its length, or else its report is made of one
component for each coordinate. -/
theorem checkGradient_rule {c : Checker α} {m : Model α σ} {x : Vec α} {P F : σ → Prop}
    {G : Vec α → Prop} {I : List Nat → σ → Prop} {R : Vec α → Nat → Except String (Entry α) → Prop}
    {Q : Report α → σ → Prop}
    (hgradient : Settles P (m.gradient x) (fun g s =>
        match lengthError "gradient" g.length x.length with
        | none => I [] s ∧ G g
        | some e => Q (c.failed .gradient e) s)
      (fun e s => Q (c.failed .gradient e.message) s) F)
    (hcoordinate : ∀ g, G g → g.length = x.length → ∀ before, ∀ i < x.length,
      Triple (I before) (c.checkCoordinate m x g i)
        (fun r s => I (before ++ [i]) s ∧ R g i r) F)
    (hreport : ∀ g components s, G g → List.Forall₂ (R g) (List.range x.length) components →
      I (List.range x.length) s → Q (c.gathered components) s) :
    Triple P (c.checkGradient m x) Q F := by
  unfold checkGradient
  refine Triple.bind hgradient ?_
  rintro (e | g)
  · exact Triple.pure fun _ hs => hs
  by_cases hlength : g.length = x.length
  · dsimp only
    rw [hlength, lengthError_self]
    refine Triple.pre (P := fun s => I [] s ∧ G g) (Triple.assume fun hg => ?_) fun _ hs => hs
    refine Triple.bind (Triple.mapM (R := R g) (fun before i hi =>
      hcoordinate g hg hlength before i (List.mem_range.mp hi)) []) fun components =>
        Triple.assume fun hcomponents => ?_
    refine Triple.bind (note_triple m _) fun _ => Triple.pure fun s hs => ?_
    rw [foldl_addComponent]
    exact hreport g components s hg hcomponents hs
  · dsimp only
    rw [lengthError, if_neg hlength]
    exact Triple.pure fun _ hs => hs

/-- Once there is a gradient of the right length, the report is made of one component for each
coordinate. -/
theorem checkGradient_triple {c : Checker α} {m : Model α σ} {x : Vec α} {P F : σ → Prop}
    {G : Vec α → Prop} {I : List Nat → σ → Prop} {R : Vec α → Nat → Except String (Entry α) → Prop}
    (hgradient : Succeeds P (m.gradient x) fun g s => (I [] s ∧ G g) ∧ g.length = x.length)
    (hcoordinate : ∀ g, G g → g.length = x.length → ∀ before, ∀ i < x.length,
      Triple (I before) (c.checkCoordinate m x g i)
        (fun r s => I (before ++ [i]) s ∧ R g i r) F) :
    Triple P (c.checkGradient m x) (fun r s => I (List.range x.length) s ∧
      ∃ g components, G g ∧ List.Forall₂ (R g) (List.range x.length) components ∧
        r = c.gathered components) F := by
  refine checkGradient_rule (I := I) (G := G) (R := R) ?_ hcoordinate
    fun g components s hg hcomponents hs => ⟨hs, g, components, hg, hcomponents, rfl⟩
  refine Settles.mono hgradient (fun _ hs => hs) (fun g s hg => ?_) (fun _ _ h => h.elim)
    fun _ h => h.elim
  rw [hg.2, lengthError_self]
  exact hg.1

/-! ## All columns -/

/-- Reports that are each made of what became of a product are made of a list of such. -/
theorem exists_products {c : Checker α} {kind : Kind}
    {R : Nat → Except String (List (Entry α)) → Prop} {l : List Nat} {columns : List (Report α)}
    (h : List.Forall₂ (fun j r => ∃ o, R j o ∧ r = c.single kind o) l columns) :
    ∃ products, List.Forall₂ R l products ∧ columns = products.map (c.single kind) := by
  induction h with
  | nil => exact ⟨[], .nil, rfl⟩
  | cons hcolumn _ ih =>
      obtain ⟨o, ho, rfl⟩ := hcolumn
      obtain ⟨products, hproducts, rfl⟩ := ih
      exact ⟨o :: products, .cons ho hproducts, rfl⟩

/-- The report is made of the products with the coordinate vectors. -/
theorem checkHessian_triple {c : Checker α} {m : Model α σ} {x : Vec α} {P F : σ → Prop}
    {R : Nat → Except String (List (Entry α)) → Prop}
    (hproduct : ∀ j < x.length, Triple P (c.compareProduct m x (Vec.unit x.length j) .hessian)
      (fun r s => P s ∧ ∃ o, R j o ∧ r = c.single .hessian o) F) :
    Triple P (c.checkHessian m x) (fun r s => P s ∧
      ∃ products, List.Forall₂ R (List.range x.length) products ∧
        r = { kind := .hessian
              entries := (values (products.zipIdx.map (inColumn x.length))).flatten
              errors := errors (products.zipIdx.map (inColumn x.length))
              tolerance := c.tolerance }) F := by
  unfold checkHessian
  refine Triple.bind (Triple.mapM (I := fun _ => P) (fun _ j hj =>
    hproduct j (List.mem_range.mp hj)) []) fun columns => Triple.assume fun hcolumns => ?_
  obtain ⟨products, hproducts, rfl⟩ := exists_products hcolumns
  refine Triple.bind (note_triple m _) fun _ => Triple.pure fun s hs => ?_
  refine ⟨hs, products, hproducts, ?_⟩
  rw [foldl_addColumn]
  rfl

end Checker

end Derivatives

end Descent
