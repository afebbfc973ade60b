/-
  Easel.Proofs.Pen.Wide — outlines drawn wide.

  A pen that fills nothing traces the same corners whatever its width. A thin one makes a vertex of each. A wide one
  makes a quad of each step from one corner to the next, and a quad begins with the corners where the one before it
  ends (`Outline`), so that the outline has no gaps.
  - `trace_plain`, `trace_wide`: the two ways to trace the same marks.
  - `quadsThrough_outline`: the quads behind one another.
  - `plan_outline`: the width of a pen decides only what the vertices of a shape are grouped into.
  - `widened`: what a call draws thin and what it draws wide.
-/
import Easel.Proofs.Pen.Figures

namespace Easel.Pen

open Easel.Geometry Mesh

/-! ## Quads -/

structure Quad where
  a : Spot
  b : Spot
  c : Spot
  d : Spot

def Quad.corners (k : Quad) : List Spot := [k.a, k.b, k.c, k.d]

def sideways (width : Float32) (p q : Spot) : Spot :=
  let angle := Float32.atan2 (q.y - p.y) (q.x - p.x) - Sweep.halfPi
  Vec2.scale ⟨angle.cos, angle.sin⟩ width

def Quad.step (width : Float32) (p a d q : Spot) : Quad :=
  ⟨a, q.add (sideways width p q), q.sub (sideways width p q), d⟩

def Quad.alone (width : Float32) (p q : Spot) : Quad :=
  .step width p (p.add (sideways width p q)) (p.sub (sideways width p q)) q

/-- The quads from a corner with two corners beside it through further corners. -/
def ribbon (width : Float32) (p a d : Spot) : List Spot → List Quad
  | [] => []
  | q :: qs =>
    let k := Quad.step width p a d q
    k :: ribbon width q k.b k.c qs

def quadsThrough (width : Float32) : List Spot → List Quad
  | p :: q :: qs => ribbon width p (p.add (sideways width p q)) (p.sub (sideways width p q)) (q :: qs)
  | _ => []

/-- The quads of a wide outline: one for each step from a corner to the next, the first on both sides of where it
    starts, every other with its first and last corner where the one before it has its second and third. -/
structure Outline (width : Float32) (spots : List Spot) (quads : List Quad) : Prop where
  count : quads.length = spots.length - 1
  ahead : ∀ i p q k, spots[i]? = some p → spots[i + 1]? = some q → quads[i]? = some k →
    k.b = q.add (sideways width p q) ∧ k.c = q.sub (sideways width p q)
  start : ∀ p q k, spots[0]? = some p → spots[1]? = some q → quads[0]? = some k → k = .alone width p q
  gapless : ∀ i k l, quads[i]? = some k → quads[i + 1]? = some l → l.a = k.b ∧ l.d = k.c

variable {s : Style} {width : Float32} {p a d : Spot}

theorem length_ribbon (qs : List Spot) : (ribbon width p a d qs).length = qs.length := by
  induction qs generalizing p a d with
  | nil => rfl
  | cons q qs ih => simp [ribbon, ih]

theorem ribbon_ahead (qs : List Spot) (i : Nat) {x y : Spot} {k : Quad} (hx : (p :: qs)[i]? = some x)
    (hy : qs[i]? = some y) (hk : (ribbon width p a d qs)[i]? = some k) :
    k.b = y.add (sideways width x y) ∧ k.c = y.sub (sideways width x y) := by
  induction qs generalizing p a d i with
  | nil => cases hy
  | cons q qs ih =>
    cases i with
    | zero =>
      obtain rfl := Option.some.inj hx
      obtain rfl := Option.some.inj hy
      obtain rfl := Option.some.inj hk
      exact ⟨rfl, rfl⟩
    | succ i => exact ih i hx hy hk

theorem ribbon_gapless (qs : List Spot) (i : Nat) {k l : Quad} (hk : (ribbon width p a d qs)[i]? = some k)
    (hl : (ribbon width p a d qs)[i + 1]? = some l) : l.a = k.b ∧ l.d = k.c := by
  induction qs generalizing p a d i with
  | nil => cases hk
  | cons q qs ih =>
    cases i with
    | zero =>
      obtain rfl := Option.some.inj hk
      cases qs with
      | nil => cases hl
      | cons r qs =>
        obtain rfl := Option.some.inj hl
        exact ⟨rfl, rfl⟩
    | succ i => exact ih i hk hl

theorem quadsThrough_outline (width : Float32) (spots : List Spot) : Outline width spots (quadsThrough width spots) := by
  rcases spots with _ | ⟨p, _ | ⟨q, qs⟩⟩
  · exact ⟨rfl, by simp, by simp, by simp [quadsThrough]⟩
  · exact ⟨rfl, by simp, by simp, by simp [quadsThrough]⟩
  · refine ⟨length_ribbon _, fun i x y k hx hy hk => ribbon_ahead _ i hx hy hk, ?_,
      fun i k l hk hl => ribbon_gapless _ i hk hl⟩
    intro x y k hx hy hk
    obtain rfl := Option.some.inj hx
    obtain rfl := Option.some.inj hy
    obtain rfl := Option.some.inj hk
    rfl

/-! ## Traces -/

def Piece.spot? : Piece → Option Spot
  | .vertex p _ => some p
  | .coord _ => none

def Mark.spot? : Mark → Option Spot
  | .corner p => some p
  | _ => none

@[simp] theorem spots_vertex (s : Style) (color : Vec4) (p : Spot) : (s.vertex color p).filterMap Piece.spot? = [p] := by
  unfold Style.vertex
  split <;> rfl

@[simp] theorem spots_quad (s : Style) (color : Vec4) (a d q offset : Spot) :
    (s.quad color a d q offset).filterMap Piece.spot? = [a, q.add offset, q.sub offset, d] := by
  simp [Style.quad]

@[simp] theorem across_eq (s : Style) (p q : Spot) : s.across p q = sideways s.width p q := rfl

/-- Each corner is a vertex. -/
theorem trace_plain (plain : s.plain = true) (ink : Ink) (trail : Trail) {ms : List Mark}
    (outlined : ms.countP Mark.isSegment = 0) :
    (s.trace ink trail ms).filterMap Piece.spot? = ms.filterMap Mark.spot? := by
  induction ms generalizing ink trail with
  | nil => rfl
  | cons m ms ih =>
    cases m with
    | change => exact ih _ _ outlined
    | coord uv => exact ih _ _ outlined
    | segment p q => simp [Mark.isSegment] at outlined
    | corner p =>
      rw [Style.trace, if_pos plain, List.filterMap_append, spots_vertex, ih _ _ outlined]
      rfl

def Trail.quads (width : Float32) : Trail → List Spot → List Quad
  | .none, qs => quadsThrough width qs
  | .first p, qs => quadsThrough width (p :: qs)
  | .later p a d, qs => ribbon width p a d qs

theorem spots_widen (s : Style) (color : Vec4) (q : Spot) (trail : Trail) (qs : List Spot) :
    (trail.quads s.width (q :: qs)).flatMap Quad.corners =
      (s.widen color q trail).1.filterMap Piece.spot? ++
        ((s.widen color q trail).2.quads s.width qs).flatMap Quad.corners := by
  cases trail with
  | none => rfl
  | first p => simp [Trail.quads, quadsThrough, ribbon, Style.widen, Quad.step, Quad.corners]
  | later p a d => simp [Trail.quads, ribbon, Style.widen, Quad.step, Quad.corners]

/-- Each step from corner to corner is a quad. -/
theorem trace_wide (wide : s.plain = false) (ink : Ink) (trail : Trail) {ms : List Mark}
    (outlined : ms.countP Mark.isSegment = 0) :
    (s.trace ink trail ms).filterMap Piece.spot? =
      (trail.quads s.width (ms.filterMap Mark.spot?)).flatMap Quad.corners := by
  induction ms generalizing ink trail with
  | nil => cases trail <;> rfl
  | cons m ms ih =>
    cases m with
    | change => exact ih _ _ outlined
    | coord uv => exact ih _ _ outlined
    | segment p q => simp [Mark.isSegment] at outlined
    | corner q =>
      have hspots : (Mark.corner q :: ms).filterMap Mark.spot? = q :: ms.filterMap Mark.spot? := rfl
      rw [hspots, spots_widen s ink.color, ← ih ink _ outlined, Style.trace, if_neg (by simp [wide])]
      exact List.filterMap_append

/-- Lines that stand alone have a quad each. -/
theorem trace_segments (s : Style) (ink : Ink) (trail : Trail) (pairs : List (Spot × Spot)) :
    (s.trace ink trail (pairs.map fun (p, q) => .segment p q)).filterMap Piece.spot? =
      (pairs.map fun (p, q) => Quad.alone s.width p q).flatMap Quad.corners := by
  induction pairs with
  | nil => rfl
  | cons pair pairs ih => simp [Style.trace, Style.segment, Quad.alone, Quad.step, Quad.corners, ih]

theorem inkAfter_congr {t : Style} (same : s.changes = t.changes) (ink : Ink) (ms : List Mark) :
    s.inkAfter ink ms = t.inkAfter ink ms := by
  induction ms generalizing ink with
  | nil => rfl
  | cons m ms ih =>
    cases m with
    | change => rw [Style.inkAfter, Style.inkAfter, Style.turn, Style.turn, same, ih]
    | _ => exact ih ink

theorem vertices_meshOf (p : Pen) (t : Topology) (pieces : List Piece) :
    (p.meshOf t pieces).vertices = (pieces.filterMap Piece.spot?).map Vec3.ofVec2 := by
  simp only [meshOf, List.map_filterMap]
  congr 1
  funext x
  cases x <;> rfl

/-! ## Figures -/

variable {p : Pen} {thin wide : Float32}

def Figure.spots (f : Figure) : List Spot := f.marks.filterMap Mark.spot?

def Figure.Connected (f : Figure) : Prop := f.marks.countP Mark.isSegment = 0

theorem vertices_plain {f : Figure} (plain : p.isPlain = true) (connected : f.Connected) :
    (p.draw f).1.vertices = f.spots.map Vec3.ofVec2 := by
  rw [draw, vertices_meshOf, trace_plain (s := p.style f.spread) plain _ _ connected]
  rfl

theorem vertices_wide {f : Figure} (wide : p.isPlain = false) (connected : f.Connected) :
    (p.draw f).1.vertices = ((quadsThrough p.width f.spots).flatMap Quad.corners).map Vec3.ofVec2 := by
  rw [draw, vertices_meshOf, trace_wide (s := p.style f.spread) wide _ _ connected]
  rfl

def atWidth (p : Pen) (width : Float32) : Pen := { p with width }

def Shape.GoesRound : Shape → Prop
  | .rect _ _ | .mitered _ _ _ | .rounded _ _ _ | .arc _ _ _ _ | .triangle _ _ _ => True
  | _ => False

structure Traces (p : Pen) (size : Point) (s : Shape) (filled : Topology) (f : Figure) : Prop where
  connected : f.Connected
  plan (width : Float32) :
    (p.atWidth width).plan size s = .figure { f with topology := (p.atWidth width).topology filled }

theorem rect_connected (p : Pen) (a b : Spot) : (p.rectFigure a b).Connected := by
  cases hfill : p.flags.fill <;> simp [Figure.Connected, rectFigure, hfill, corner, Mark.isSegment]

theorem mitered_connected (p : Pen) (center a b : Spot) (miter : Float32) :
    (p.miteredFigure center a b miter).Connected := by
  cases hfill : p.flags.fill <;> simp [Figure.Connected, miteredFigure, hfill, corner, Mark.isSegment]

theorem rounded_connected (p : Pen) (a b : Spot) (r : Float32) : (p.roundedFigure a b r).Connected := by
  have hquarter := countP_quarter fun q => (rfl : Mark.isSegment (.corner q) = false)
  cases hfill : p.flags.fill <;>
    simp [Figure.Connected, roundedFigure, hfill, corner, Mark.isSegment, List.countP_append, hquarter]

theorem arc_connected (p : Pen) (center radius size : Spot) (angles : List Float32) :
    (p.arcFigure center radius size angles).Connected := by
  cases hfill : p.flags.fill <;>
    simp [Figure.Connected, arcFigure, hfill, corner, Mark.isSegment, List.countP_map]

theorem triangle_connected (p : Pen) (a b c : Spot) : (p.triangleFigure a b c).Connected := by
  cases hfill : p.flags.fill <;> simp [Figure.Connected, triangleFigure, hfill, Mark.isSegment]

/-- Whatever the width of a pen, it draws nothing, goes on for ever, or traces the same figure. -/
theorem plan_outline (p : Pen) (size : Point) {s : Shape} (round : s.GoesRound) :
    (∀ width, (p.atWidth width).plan size s = .nothing) ∨ (∀ width, (p.atWidth width).plan size s = .endless) ∨
      ∃ filled f, Traces p size s filled f := by
  have hrect (a b : Spot) (h : ∀ width, (p.atWidth width).plan size s = .figure ((p.atWidth width).rectFigure a b)) :
      ∃ filled f, Traces p size s filled f :=
    ⟨.quads, p.rectFigure a b, rect_connected .., h⟩
  cases s with
  | rect a b => exact .inr (.inr (hrect _ _ fun _ => rfl))
  | mitered a b miter =>
    by_cases square : miter = 0
    · exact .inr (.inr (hrect _ _ fun _ => if_pos square))
    · exact .inr (.inr ⟨.triangleFan, p.miteredFigure _ _ _ _, mitered_connected .., fun _ => if_neg square⟩)
  | rounded a b roundness =>
    by_cases square : roundness = 0
    · exact .inr (.inr (hrect _ _ fun _ => if_pos square))
    · exact .inr (.inr ⟨.triangleFan, p.roundedFigure _ _ _, rounded_connected .., fun _ => if_neg square⟩)
  | arc a b start stop =>
    by_cases same : (stop - start).abs < angleTolerance
    · exact .inl fun _ => if_pos same
    · by_cases flat : (spot ((a.max b).sub (a.min b))).x == 0 || (spot ((a.max b).sub (a.min b))).y == 0
      · exact .inl fun _ => (if_neg same).trans (if_pos flat)
      · cases hangles : Sweep.upward? stop start with
        | none =>
          refine .inr (.inl fun width => ?_)
          simp only [plan, arcPlan, if_neg same, if_neg flat, hangles]
        | some angles =>
          let box := spot ((a.max b).sub (a.min b))
          let radius : Spot := ⟨box.x / 2, box.y / 2⟩
          refine .inr (.inr ⟨.triangleFan, p.arcFigure ((spot (a.min b)).add radius) radius box angles,
            arc_connected .., fun width => ?_⟩)
          simp only [plan, arcPlan, if_neg same, if_neg flat, hangles]
          rfl
  | triangle a b c => exact .inr (.inr ⟨.triangles, p.triangleFigure _ _ _, triangle_connected .., fun _ => rfl⟩)
  | _ => exact round.elim

/-! ## Calls -/

structure Widens (width : Float32) (thin wide : Mesh) : Prop where
  state : wide.state = { thin.state with topology := .quads }
  count : wide.vertices.length = 4 * (thin.vertices.length - 1)
  outline : ∃ spots quads, thin.vertices = spots.map Vec3.ofVec2 ∧
    wide.vertices = (quads.flatMap Quad.corners).map Vec3.ofVec2 ∧ Outline width spots quads

theorem length_corners (quads : List Quad) : (quads.flatMap Quad.corners).length = 4 * quads.length := by
  induction quads with
  | nil => rfl
  | cons k quads ih =>
    rw [List.flatMap_cons, List.length_append, ih, List.length_cons]
    show 4 + 4 * quads.length = _
    omega

/-- The same figure, drawn thin and wide. -/
theorem draw_widens {filled : Topology} {f : Figure} (unfilled : p.flags.fill = false) (hthin : thin ≤ 1)
    (hwide : 1 < wide) (connected : f.Connected) :
    Widens wide ((p.atWidth thin).draw { f with topology := (p.atWidth thin).topology filled }).1
      ((p.atWidth wide).draw { f with topology := (p.atWidth wide).topology filled }).1 := by
  have hisWide : (p.atWidth wide).isWide = true := decide_eq_true hwide
  have hribboned : (p.atWidth wide).isPlain = false := isPlain_of_isWide (p := p.atWidth wide) unfilled hisWide
  have hplain : (p.atWidth thin).isPlain = true := by
    rw [isPlain, decide_eq_true (show (p.atWidth thin).width ≤ 1 from hthin), Bool.or_true]
  have hquads : (p.atWidth wide).topology filled = .quads := by
    rw [topology, if_neg (by simp [atWidth, unfilled]), if_pos hisWide]
  have houtline := quadsThrough_outline wide f.spots
  have hcorners := vertices_plain hplain (f := { f with topology := (p.atWidth thin).topology filled }) connected
  have hribbon := vertices_wide hribboned (f := { f with topology := (p.atWidth wide).topology filled }) connected
  refine ⟨?_, ?_, f.spots, _, hcorners, hribbon, houtline⟩
  · rw [hquads]
    rfl
  · rw [hcorners, hribbon, List.length_map, List.length_map, length_corners]
    exact congrArg (4 * ·) houtline.count

/-- The colors change over alike. -/
theorem draw_pen (p : Pen) (thin wide : Float32) (t u : Topology) (f : Figure) :
    ((p.atWidth wide).draw { f with topology := u }).2 =
      ((p.atWidth thin).draw { f with topology := t }).2.atWidth wide := by
  have hink := inkAfter_congr (s := (p.atWidth wide).style f.spread) (t := (p.atWidth thin).style f.spread) rfl
    p.ink f.marks
  exact congrArg (fun ink => { p with width := wide, ink }) hink

/-- Thick lines are quads, whatever the pen. -/
theorem thickLines_quads (p : Pen) (size : Point) (pairs : List (Spot × Spot)) :
    ∃ m, p.drawShape? size (.thickLines pairs) = some ([.mesh m], p) ∧ m.state.topology = .quads ∧
      m.vertices = ((pairs.map fun (a, b) => Quad.alone p.width a b).flatMap Quad.corners).map Vec3.ofVec2 := by
  have hplan : p.plan size (.thickLines pairs) = .figure (thickFigure pairs) := rfl
  have hink (s : Style) (ink : Ink) : s.inkAfter ink (thickFigure pairs).marks = ink := by
    unfold thickFigure
    induction pairs with
    | nil => rfl
    | cons pair pairs ih => exact ih rfl
  have hpen : (p.draw (thickFigure pairs)).2 = p := congrArg (fun ink => { p with ink }) (hink _ p.ink)
  refine ⟨(p.draw (thickFigure pairs)).1, ?_, rfl, ?_⟩
  · rw [drawShape?_figure hplan, hpen]
  · rw [draw, vertices_meshOf, thickFigure, trace_segments]
    rfl

/-- What a call draws with a thin pen, it draws with a wide one in quads. Thick lines are always quads. -/
theorem widened (unfilled : p.flags.fill = false) (hthin : thin ≤ 1) (hwide : 1 < wide) {size : Point} {s : Shape}
    (round : s.GoesRound) {outputs : List Output} {q : Pen}
    (ends : (p.atWidth thin).drawShape? size s = some (outputs, q)) :
    ((outputs = [] ∧ (p.atWidth wide).drawShape? size s = some ([], q.atWidth wide)) ∨
      ∃ m m', outputs = [.mesh m] ∧ (p.atWidth wide).drawShape? size s = some ([.mesh m'], q.atWidth wide) ∧
        Widens wide m m') ∧
    ∀ (r : Pen) (pairs : List (Spot × Spot)), ∃ m, r.drawShape? size (.thickLines pairs) = some ([.mesh m], r) ∧
      m.state.topology = .quads ∧
      m.vertices = ((pairs.map fun (a, b) => Quad.alone r.width a b).flatMap Quad.corners).map Vec3.ofVec2 := by
  refine ⟨?_, fun r pairs => thickLines_quads r size pairs⟩
  rcases plan_outline p size round with nothing | endless | ⟨filled, f, connected, hplan⟩
  · rw [drawShape?_nothing (nothing thin)] at ends
    obtain ⟨rfl, rfl⟩ := Prod.mk.inj (Option.some.inj ends)
    exact .inl ⟨rfl, drawShape?_nothing (nothing wide)⟩
  · rw [drawShape?_endless (endless thin)] at ends
    cases ends
  · rw [drawShape?_figure (hplan thin)] at ends
    obtain ⟨rfl, rfl⟩ := Prod.mk.inj (Option.some.inj ends)
    refine .inr ⟨_, _, rfl, ?_, draw_widens unfilled hthin hwide connected⟩
    rw [drawShape?_figure (hplan wide), draw_pen p thin wide]

/-- A rectangle, of one pixel's width and of two. -/
theorem widened_rect : ∃ m m' q,
    (({} : Pen).atWidth 1).drawShape? ⟨100, 100⟩ (.rect ⟨10, 10⟩ ⟨20, 20⟩) = some ([.mesh m], q) ∧
      (({} : Pen).atWidth 2).drawShape? ⟨100, 100⟩ (.rect ⟨10, 10⟩ ⟨20, 20⟩) = some ([.mesh m'], q.atWidth 2) ∧
        Widens 2 m m' := by
  have hthin : (1 : Float32) ≤ 1 := by decide +kernel
  have hwide : (1 : Float32) < 2 := by decide +kernel
  have round : (Shape.rect ⟨10, 10⟩ ⟨20, 20⟩).GoesRound := trivial
  have hplan : (({} : Pen).atWidth 1).plan ⟨100, 100⟩ (.rect ⟨10, 10⟩ ⟨20, 20⟩) =
      .figure ((({} : Pen).atWidth 1).rectFigure (spot ⟨10, 10⟩) (spot ⟨20, 20⟩)) := rfl
  have ends := drawShape?_figure hplan
  rcases (widened (p := {}) rfl hthin hwide round ends).1 with ⟨nothing, -⟩ | ⟨m, m', same, hquads, hwidens⟩
  · cases nothing
  · rw [same] at ends
    exact ⟨m, m', _, ends, hquads, hwidens⟩

end Easel.Pen
