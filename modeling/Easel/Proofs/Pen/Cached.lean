/-
  Easel.Proofs.Pen.Cached — drawing into a cache and drawing directly.

  Calls on pens submit meshes; kept in a cache they are merged, series by series. Points, lines, triangles and
  quads come in whole primitives and stay as they are. Strips and fans of one series are joined: a cache draws
  the line between two outlines of the same kind.
  - `primitives_from_cache`: the primitives drawn from a cache, and when they are those drawn directly.
-/
import Easel.Proofs.Mesh.Series
import Easel.Proofs.Pen.Figures

namespace Easel.Pen

open Easel.Geometry Mesh

/-- A step of a pen over something of a size, or a call that draws in space; the pen is what it is by then. -/
inductive Call where
  | flat (p : Pen) (size : Point) (s : Step)
  | spatial (p : Spatial) (s : Spatial.Shape)

def Call.submissions? : Call → Option (List Submission)
  | .flat p size s => (p.step? size s).map fun (outputs, _) => outputs.filterMap fun
    | .mesh m => some ⟨m, true⟩
    | .label _ => none
  | .spatial p s => (p.draw? s).map fun ms => ms.map (⟨·, false⟩)

def submissions? : List Call → Option (List Submission)
  | [] => some []
  | c :: cs => do
    let first ← c.submissions?
    let rest ← submissions? cs
    return first ++ rest

theorem Call.drawable {c : Call} {ss : List Submission} (h : c.submissions? = some ss) : ∀ s ∈ ss, Drawable s.mesh := by
  intro s hs
  cases c with
  | flat p size step =>
    obtain ⟨⟨outputs, q⟩, hstep, rfl⟩ := Option.map_eq_some_iff.mp h
    obtain ⟨output, houtput, hsome⟩ := List.mem_filterMap.mp hs
    cases output with
    | mesh m =>
      obtain rfl := Option.some.inj hsome
      exact step_drawable hstep m houtput
    | label l => cases hsome
  | spatial p shape =>
    obtain ⟨ms, hms, rfl⟩ := Option.map_eq_some_iff.mp h
    obtain ⟨m, hm, rfl⟩ := List.mem_map.mp hs
    exact spatial_drawable hms m hm

theorem submissions_drawable {calls : List Call} {ss : List Submission} (h : submissions? calls = some ss) :
    ∀ s ∈ ss, Drawable s.mesh := by
  induction calls generalizing ss with
  | nil =>
    obtain rfl := Option.some.inj h
    intro s hs
    cases hs
  | cons c calls ih =>
    obtain ⟨first, hfirst, h⟩ := Option.bind_eq_some_iff.mp h
    obtain ⟨rest, hrest, h⟩ := Option.bind_eq_some_iff.mp h
    obtain rfl := Option.some.inj h
    intro s hs
    rcases List.mem_append.mp hs with hs | hs
    · exact Call.drawable hfirst s hs
    · exact ih hrest s hs

structure Redrawn (ss : List Submission) : Prop where
  /-- A mesh has as many primitives as its topology makes of its indices. -/
  counts : ∀ s ∈ ss ++ (Mesh.cached ss).render,
    s.mesh.primitives.length = s.mesh.state.topology.count s.mesh.indices.length
  /-- Each series has the primitives of all its corners. -/
  cached : drawn (Mesh.cached ss).render = (series ss).flatMap Series.together
  /-- Each mesh has its own primitives. -/
  direct : drawn ss = (series ss).flatMap Series.apart
  /-- Only strips and fans that are joined make a difference. -/
  same_iff : drawn (Mesh.cached ss).render = drawn ss ↔ ∀ r ∈ series ss, ¬ r.Linked

theorem primitives_from_cache (calls : List Call) (ss : List Submission) (submitted : submissions? calls = some ss)
    (countable : ∀ r ∈ series ss, r.Countable) : Redrawn ss := by
  have hdrawable := submissions_drawable submitted
  have inRange : ∀ s ∈ ss, ∀ i ∈ s.mesh.indices, i < s.mesh.vertices.length := fun s hs => (hdrawable s hs).inRange
  have whole : Whole ss := fun s hs => (hdrawable s hs).whole
  exact ⟨fun s _ => Mesh.length_primitives s.mesh, drawn_cached inRange countable, drawn_eq ss,
    drawn_cached_eq_iff inRange whole countable⟩

def outline (p q : Point) : Call := .flat {} ⟨100, 100⟩ (.draw (.rect p q))

def outlines : List Call := [outline ⟨10, 10⟩ ⟨20, 20⟩, outline ⟨40, 40⟩ ⟨60, 60⟩]

theorem primitives_of_outlines :
    let ss := (submissions? outlines).getD []
    submissions? outlines = some ss ∧ (∀ r ∈ series ss, r.Countable) ∧ Redrawn ss := by
  have submitted : submissions? outlines = some ((submissions? outlines).getD []) := rfl
  have few : (((submissions? outlines).getD []).flatMap fun s => s.mesh.vertices).length < 4294967296 := by
    decide +kernel
  have countable := countable_of_few few
  exact ⟨submitted, countable, primitives_from_cache outlines _ submitted countable⟩

/-- The cache draws a ninth line, from the end of one outline to the start of the other. -/
theorem outlines_joined : ¬ ∀ calls ss, submissions? calls = some ss → (∀ r ∈ series ss, r.Countable) →
    drawn (Mesh.cached ss).render = drawn ss := by
  intro h
  have hsame := h outlines _ rfl (countable_of_few (by decide +kernel))
  have hcounts : (drawn (Mesh.cached ((submissions? outlines).getD [])).render).length = 9 ∧
      (drawn ((submissions? outlines).getD [])).length = 8 := by decide +kernel
  have := congrArg List.length hsame
  have h9 := hcounts.1.symm.trans (this.trans hcounts.2)
  cases h9

end Easel.Pen
