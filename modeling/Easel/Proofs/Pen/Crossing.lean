/-
  Easel.Proofs.Pen.Crossing — clipping a line that meets what is drawn on, and one that passes it.

  With coordinates of 20 bits a cut is off by less than half a pixel before it is truncated, and truncation only leads
  inward, past no edge that the line was not past. So what a line reaches before it is cut at the left and the right
  edge it nearly reaches afterwards, to less than a row (`Reaches`), and a line that meets the pixels is not moved off.
  - `way_close`, `sum_close`, `between_follows`: how far off a cut is.
  - `cutLeft_crosses`, `cutRight_crosses`: where the cuts lead.
  - `Reaches.moved`, `columnEnds_reaches`: what one cut takes from a line, and what both do.
  - `Meets.near`: a line that meets the pixels is not left above the top or below the bottom.
  - `clipLine_inside_iff`: when nothing is left to draw, and when the ends of what is left are inside.
  - `past_a_corner`: a line past a corner is left outside, and drawn.
-/
import Mathlib.Data.Real.Basic
import Easel.Proofs.Pen.Clipping

namespace Easel.Pen

open Number Single Easel.Geometry

/-! ## Coordinates of 20 bits -/

/-- Coordinates with which cuts are computed to fractions of a pixel. -/
def Ordinary (a : Int) : Prop := -1048576 < a ∧ a < 1048576

def Plain (p : Point) : Prop := Ordinary p.x ∧ Ordinary p.y

/-- A whole number that is no farther from zero than `y`, or by 7/16 at most. -/
def Follows (n : Int) (y : ℚ) : Prop := (0 ≤ n ∨ y - 7 / 16 ≤ n) ∧ (n ≤ 0 ∨ n ≤ y + 7 / 16)

variable {t : Float32} {r : ℚ} {a b d width : Int} {p q c : Point}

theorem Ordinary.of_abs (h : |a| < 2 ^ 20) : Ordinary a := by
  obtain ⟨hlow, hhigh⟩ := abs_lt.mp h
  unfold Ordinary
  omega

theorem Ordinary.modest (h : Ordinary a) : Modest a := by
  unfold Ordinary at h
  unfold Modest
  omega

theorem ordinary_leads : Leads Ordinary Ordinary where
  keeps h := h
  cuts {a b t} part ha hb := by
    unfold Ordinary at *
    have hbounds : min a b ≤ between a b t ∧ between a b t ≤ max a b :=
      between_mid part (by unfold Modest; omega) (by unfold Modest; omega) (by unfold Modest; omega)
    omega

/-- The part of the way is off by a quarter of a pixel at most, and rounding what it amounts to by an eighth. -/
theorem way_close (part : PartOf r t) (short : -2097150 ≤ d ∧ d ≤ 2097150) :
    ∃ way, Value (t * ofInt d) way ∧ ((min 0 d : Int) ≤ way ∧ way ≤ (max 0 d : Int)) ∧ |way - r * d| ≤ 3 / 8 := by
  obtain ⟨-, -, τ, ht, hτ, hpart⟩ := part
  have habs : |(d : ℚ)| ≤ 2097150 := abs_le.mpr ⟨by exact_mod_cast short.1, by exact_mod_cast short.2⟩
  have hd : Value (ofInt d) d := ofInt_value (.inl (by omega))
  obtain ⟨way, hway, hrounds, hlow, hhigh⟩ := part_value (min 0 d) (max 0 d) ht hτ hd
    ⟨.inl (by omega), by omega, by exact_mod_cast min_le_right 0 d⟩
    ⟨.inl (by omega), by omega, by exact_mod_cast le_max_right 0 d⟩
  have hproduct : |τ * d| ≤ 2097150 := by
    rw [abs_mul, abs_of_nonneg hτ.1]
    nlinarith [abs_nonneg (d : ℚ)]
  have hclose : |way - τ * d| ≤ 2 ^ (-3 : Int) :=
    hrounds.close (g := -3) (by decide) (by decide) (hproduct.trans (by norm_num))
  have hdrift : |τ * d - r * d| ≤ 1 / 4 := by
    rw [← sub_mul, abs_mul]
    calc |τ - r| * |(d : ℚ)| ≤ 2 ^ (-23 : Int) * 2097150 := by gcongr
      _ ≤ 1 / 4 := by norm_num
  refine ⟨way, hway, ⟨hlow, hhigh⟩, ?_⟩
  calc |way - r * d| ≤ |way - τ * d| + |τ * d - r * d| := abs_sub_le ..
    _ ≤ 2 ^ (-3 : Int) + 1 / 4 := add_le_add hclose hdrift
    _ = 3 / 8 := by norm_num

/-- Rounding where it leads adds a sixteenth. -/
theorem sum_close (part : PartOf r t) (ha : Ordinary a) (hb : Ordinary b) :
    ∃ y, Value (ofInt a + t * ofInt (b - a)) y ∧ |y - (a + r * (b - a))| ≤ 7 / 16 := by
  unfold Ordinary at ha hb
  obtain ⟨way, hway, ⟨hlow, hhigh⟩, hwayclose⟩ := way_close (d := b - a) part (by omega)
  have hleast : (-1048575 : ℚ) ≤ a + (min 0 (b - a) : Int) := by
    exact_mod_cast (show -1048575 ≤ a + min 0 (b - a) by omega)
  have hgreatest : (a : ℚ) + (max 0 (b - a) : Int) ≤ 1048575 := by
    exact_mod_cast (show a + max 0 (b - a) ≤ 1048575 by omega)
  have hsum : |(a : ℚ) + way| ≤ 1048575 := abs_le.mpr ⟨by linarith, by linarith⟩
  have ha : Value (ofInt a) a := ofInt_value (.inl (by omega))
  obtain ⟨y, hy, hrounds⟩ := add_value ha hway (hsum.trans_lt (by norm_num))
  have hclose : |y - (a + way)| ≤ 2 ^ (-4 : Int) :=
    hrounds.close (g := -4) (by decide) (by decide) (hsum.trans (by norm_num))
  have hshift : (a : ℚ) + way - (a + r * (b - a)) = way - r * (b - a : Int) := by
    push_cast
    ring
  refine ⟨y, hy, ?_⟩
  calc |y - (a + r * (b - a))| ≤ |y - (a + way)| + |a + way - (a + r * (b - a))| := abs_sub_le ..
    _ ≤ 2 ^ (-4 : Int) + 3 / 8 := add_le_add hclose (by rwa [hshift])
    _ = 7 / 16 := by norm_num

/-- Truncation leads no farther out than that. -/
theorem between_follows (part : PartOf r t) (ha : Ordinary a) (hb : Ordinary b) :
    Follows (between a b t) (a + r * (b - a)) := by
  obtain ⟨y, hy, hclose⟩ := sum_close part ha hb
  obtain ⟨hback, hforth⟩ := abs_le.mp hclose
  have htruncate : between a b t = truncate (ofInt a + t * ofInt (b - a)) := by
    unfold Ordinary at ha hb
    rw [between, wrap_small (by omega)]
  obtain ⟨hpositive, hnegative⟩ := truncate_inward hy
  rw [← htruncate] at hpositive hnegative
  rcases le_total 0 y with positive | negative
  · obtain ⟨hsign, hle⟩ := hpositive positive
    exact ⟨.inl hsign, .inr (by linarith)⟩
  · obtain ⟨hsign, hle⟩ := hnegative negative
    exact ⟨.inr (by linarith), .inl hsign⟩

/-! ## Where a line crosses an edge -/

/-- The point is in a column that the line from `p` to `q` crosses, at the height of the line but for rounding. -/
def Crosses (p q c : Point) : Prop :=
  ∃ r : ℚ, (0 ≤ r ∧ r ≤ 1) ∧ (c.x : ℚ) = p.x + r * (q.x - p.x) ∧ Follows c.y (p.y + r * (q.y - p.y))

theorem Crosses.symm (h : Crosses p q c) : Crosses q p c := by
  obtain ⟨r, ⟨hr0, hr1⟩, hx, hy⟩ := h
  refine ⟨1 - r, ⟨by linarith, by linarith⟩, by rw [hx]; ring, ?_⟩
  have hsame : (q.y : ℚ) + (1 - r) * (p.y - q.y) = p.y + r * (q.y - p.y) := by ring
  rwa [hsame]

theorem crosses_of_part {u x : Int} (part : PartOf ((u : ℚ) / (q.x - p.x : Int)) t) (hp : Plain p) (hq : Plain q)
    (apart : q.x ≠ p.x) (there : x = p.x + u) : Crosses p q ⟨x, between p.y q.y t⟩ := by
  refine ⟨_, ⟨part.nonneg, part.le_one⟩, ?_, between_follows part hp.2 hq.2⟩
  have hne : (q.x : ℚ) - p.x ≠ 0 := sub_ne_zero.mpr (by exact_mod_cast apart)
  rw [there]
  push_cast
  rw [div_mul_cancel₀ _ hne]

theorem cutLeft_crosses (hp : Plain p) (hq : Plain q) (across : ¬(p.x < 0 ↔ q.x < 0)) : Crosses p q (cutLeft p q) := by
  rw [cutLeft_eq hp.1.modest hq.1.modest]
  obtain ⟨⟨hpx, -⟩, hqx, -⟩ : Plain p ∧ Plain q := ⟨hp, hq⟩
  unfold Ordinary at hpx hqx
  have hvalue : Value (-ofInt p.x) (-p.x : Int) := by
    rw [Int.cast_neg]
    exact neg_value (ofInt_value (.inl (by omega)))
  refine crosses_of_part (u := -p.x) (fraction_partOf (by omega) hvalue (.inl (by omega))) hp hq (by omega) (by omega)

theorem cutRight_crosses (side : 1 ≤ width ∧ width ≤ 1048576) (hp : Plain p) (hq : Plain q)
    (across : ¬(width ≤ p.x ↔ width ≤ q.x)) : Crosses p q (cutRight width p q) := by
  rw [cutRight_eq (by omega) hp.1.modest hq.1.modest]
  obtain ⟨⟨hpx, -⟩, hqx, -⟩ : Plain p ∧ Plain q := ⟨hp, hq⟩
  unfold Ordinary at hpx hqx
  have hvalue : Value (ofInt (width - 1 - p.x)) (width - 1 - p.x : Int) := ofInt_value (.inl (by omega))
  refine crosses_of_part (u := width - 1 - p.x) (fraction_partOf (by omega) hvalue (.inl (by omega))) hp hq (by omega)
    (by omega)

/-! ## How far a line reaches -/

/-- Between the middles of the first and the last column, the line gets as far as `level`. -/
def Reaches (width : Int) (level : ℝ) (f : Point → ℝ) (ends : Point × Point) : Prop :=
  ∃ s : ℝ, (0 ≤ s ∧ s ≤ 1) ∧
    (0 ≤ ends.1.x + s * (ends.2.x - ends.1.x) ∧ ends.1.x + s * (ends.2.x - ends.1.x) ≤ width - 1) ∧
      level ≤ f ends.1 + s * (f ends.2 - f ends.1)

/-- What goes down or up with the rows: a cut takes 7/16 of it at most, and nothing once it would be above zero. -/
def Lasts (f : Point → ℝ) : Prop := ∀ {p q c : Point}, Crosses p q c →
  ∃ r : ℝ, (0 ≤ r ∧ r ≤ 1) ∧ (c.x : ℝ) = p.x + r * (q.x - p.x) ∧ (0 ≤ f c ∨ f p + r * (f q - f p) - 7 / 16 ≤ f c)

/-- The same crossing among real numbers. -/
theorem Crosses.real (h : Crosses p q c) : ∃ r : ℝ, (0 ≤ r ∧ r ≤ 1) ∧ (c.x : ℝ) = p.x + r * (q.x - p.x) ∧
    ((0 : ℝ) ≤ c.y ∨ (p.y : ℝ) + r * (q.y - p.y) - 7 / 16 ≤ c.y) ∧
      ((c.y : ℝ) ≤ 0 ∨ (c.y : ℝ) ≤ p.y + r * (q.y - p.y) + 7 / 16) := by
  obtain ⟨r, ⟨hr0, hr1⟩, hx, hlow, hhigh⟩ := h
  have hcolumn := congrArg (Rat.cast (K := ℝ)) hx
  push_cast at hcolumn
  refine ⟨r, ⟨by exact_mod_cast hr0, by exact_mod_cast hr1⟩, hcolumn, ?_, ?_⟩
  · refine hlow.imp (fun hsign => by exact_mod_cast hsign) fun hle => ?_
    have hcast := (Rat.cast_le (K := ℝ)).mpr hle
    push_cast at hcast
    exact hcast
  · refine hhigh.imp (fun hsign => by exact_mod_cast hsign) fun hle => ?_
    have hcast := (Rat.cast_le (K := ℝ)).mpr hle
    push_cast at hcast
    exact hcast

theorem lasts_down : Lasts fun e => e.y := by
  intro p q c crosses
  obtain ⟨r, hr, hx, hlow, -⟩ := crosses.real
  exact ⟨r, hr, hx, hlow⟩

theorem lasts_up : Lasts fun e => -e.y := by
  intro p q c crosses
  obtain ⟨r, hr, hx, -, hhigh⟩ := crosses.real
  refine ⟨r, hr, hx, hhigh.imp (fun hsign => neg_nonneg.mpr hsign) fun hle => ?_⟩
  linarith

variable {level : ℝ} {f : Point → ℝ} {ends : Point × Point}

theorem Reaches.symm (h : Reaches width level f (p, q)) : Reaches width level f (q, p) := by
  obtain ⟨s, ⟨hs0, hs1⟩, hx, hf⟩ := h
  have hsame (a b : ℝ) : b + (1 - s) * (a - b) = a + s * (b - a) := by ring
  refine ⟨1 - s, ⟨by linarith, by linarith⟩, ?_, ?_⟩
  · show 0 ≤ (q.x : ℝ) + (1 - s) * (p.x - q.x) ∧ (q.x : ℝ) + (1 - s) * (p.x - q.x) ≤ width - 1
    rwa [hsame]
  · show level ≤ f q + (1 - s) * (f p - f q)
    rwa [hsame]

theorem Reaches.mono {lower : ℝ} (h : Reaches width level f ends) (below : lower ≤ level) :
    Reaches width lower f ends := by
  obtain ⟨s, hs, hx, hf⟩ := h
  exact ⟨s, hs, hx, below.trans hf⟩

/-- What is between two coordinates is beyond an edge that both are beyond. -/
theorem Beyond.outside {extent a b : Int} (h : Beyond extent a b) {s : ℝ} (hs : 0 ≤ s ∧ s ≤ 1) :
    ¬(0 ≤ a + s * (b - a) ∧ a + s * (b - a) ≤ extent - 1) := by
  rintro ⟨hlow, hhigh⟩
  obtain ⟨hs0, hs1⟩ := hs
  rcases h with ⟨ha, hb⟩ | ⟨ha, hb⟩
  · have ha : (a : ℝ) ≤ -1 := by exact_mod_cast (show a ≤ -1 by omega)
    have hb : (b : ℝ) ≤ -1 := by exact_mod_cast (show b ≤ -1 by omega)
    nlinarith
  · have ha : (extent : ℝ) ≤ a := by exact_mod_cast ha
    have hb : (extent : ℝ) ≤ b := by exact_mod_cast hb
    nlinarith

/-- A line that reaches anything has no two ends beyond the same edge. -/
theorem Reaches.not_beyond (h : Reaches width level f ends) : ¬ Beyond width ends.1.x ends.2.x := by
  obtain ⟨s, hs, hreached, -⟩ := h
  intro far
  exact far.outside hs hreached

/-- What it reaches, one of its ends does. -/
theorem Reaches.not_both (h : Reaches width level f ends) : ¬ Both (fun e => f e < level) ends := by
  obtain ⟨s, ⟨hs0, hs1⟩, -, hf⟩ := h
  rintro ⟨hp, hq⟩
  rcases le_total (f ends.1) (f ends.2) with hle | hle
  · have hrest := mul_nonneg (sub_nonneg.mpr hs1) (sub_nonneg.mpr hle)
    linarith
  · have hpart := mul_nonneg hs0 (sub_nonneg.mpr hle)
    linarith

/-- What the line reaches is behind the edge that its first end is beyond. -/
theorem later_than_edge {r s : ℝ} (nonneg : 0 ≤ r) (crossing : (c.x : ℝ) = p.x + r * (q.x - p.x))
    (reached : 0 ≤ p.x + s * (q.x - p.x) ∧ p.x + s * (q.x - p.x) ≤ width - 1)
    (edge : (c.x = 0 ∧ p.x < 0) ∨ (c.x = width - 1 ∧ width ≤ p.x)) : r ≤ s := by
  rcases edge with ⟨hc, hp⟩ | ⟨hc, hp⟩
  · have hc : (c.x : ℝ) = 0 := by exact_mod_cast hc
    have hp : (p.x : ℝ) < 0 := by exact_mod_cast hp
    have hright : (0 : ℝ) < q.x - p.x := by
      by_contra left
      nlinarith
    refine le_of_mul_le_mul_right ?_ hright
    linarith [reached.1]
  · have hc : (c.x : ℝ) = width - 1 := by exact_mod_cast hc
    have hp : (width : ℝ) ≤ p.x := by exact_mod_cast hp
    have hleft : (q.x : ℝ) - p.x < 0 := by
      by_contra right
      nlinarith
    refine (mul_le_mul_right_of_neg hleft).mp ?_
    linarith [reached.2]

/-- The rest of the way after a part of it. -/
theorem rest_of_way {r s : ℝ} (hle : r ≤ s) (hs : s ≤ 1) : ∃ k, (0 ≤ k ∧ k ≤ 1) ∧ s = r + k * (1 - r) := by
  rcases (hle.trans hs).eq_or_lt with rfl | hlt
  · exact ⟨0, ⟨le_rfl, zero_le_one⟩, by linarith⟩
  · have hpos : 0 < 1 - r := sub_pos.mpr hlt
    refine ⟨(s - r) / (1 - r), ⟨div_nonneg (sub_nonneg.mpr hle) hpos.le, (div_le_one hpos).mpr (by linarith)⟩, ?_⟩
    rw [div_mul_cancel₀ _ hpos.ne']
    ring

/-- A cut at an edge that the first end is beyond. -/
theorem Reaches.first (h : Reaches width level f (p, q)) (lasts : Lasts f) (nonpos : level ≤ 0)
    (crosses : Crosses p q c) (side : 1 ≤ width) (edge : (c.x = 0 ∧ p.x < 0) ∨ (c.x = width - 1 ∧ width ≤ p.x)) :
    Reaches width (level - 7 / 16) f (c, q) := by
  obtain ⟨s, ⟨-, hs1⟩, hreached, hf⟩ := h
  obtain ⟨r, ⟨hr0, -⟩, hx, hc⟩ := lasts crosses
  obtain ⟨k, ⟨hk0, hk1⟩, rfl⟩ := rest_of_way (later_than_edge hr0 hx hreached edge) hs1
  rcases hc with above | close
  · -- the point of the cut itself
    have hcolumn : 0 ≤ (c.x : ℝ) ∧ (c.x : ℝ) ≤ width - 1 := by
      have hwithin : 0 ≤ c.x ∧ c.x ≤ width - 1 := by omega
      exact ⟨by exact_mod_cast hwithin.1, by exact_mod_cast hwithin.2⟩
    refine ⟨0, ⟨le_rfl, zero_le_one⟩, by simpa using hcolumn, ?_⟩
    rw [zero_mul, add_zero]
    linarith
  · -- the same column of the line from there on
    have hsame : (c.x : ℝ) + k * (q.x - c.x) = p.x + (r + k * (1 - r)) * (q.x - p.x) := by
      rw [hx]
      ring
    refine ⟨k, ⟨hk0, hk1⟩, ?_, ?_⟩
    · show 0 ≤ (c.x : ℝ) + k * (q.x - c.x) ∧ (c.x : ℝ) + k * (q.x - c.x) ≤ width - 1
      rwa [hsame]
    · have hcut := mul_nonneg (sub_nonneg.mpr hk1) (sub_nonneg.mpr close)
      show level - 7 / 16 ≤ f c + k * (f q - f c)
      nlinarith

theorem Reaches.second (h : Reaches width level f (p, q)) (lasts : Lasts f) (nonpos : level ≤ 0)
    (crosses : Crosses p q c) (side : 1 ≤ width) (edge : (c.x = 0 ∧ q.x < 0) ∨ (c.x = width - 1 ∧ width ≤ q.x)) :
    Reaches width (level - 7 / 16) f (p, c) :=
  (h.symm.first lasts nonpos crosses.symm side edge).symm

/-- A cut at the left or at the right edge. -/
theorem Reaches.moved {out : Point → Bool} {cut : Point → Point → Point} {x : Int} (h : Reaches width level f ends)
    (lasts : Lasts f) (nonpos : level ≤ 0) (side : 1 ≤ width)
    (edge : (x = 0 ∧ ∀ e, out e = true → e.x < 0) ∨ (x = width - 1 ∧ ∀ e, out e = true → width ≤ e.x))
    (lands : (cut ends.1 ends.2).x = x)
    (crosses : ¬(out ends.1 = true ↔ out ends.2 = true) → Crosses ends.1 ends.2 (cut ends.1 ends.2)) :
    Reaches width (level - 7 / 16) f (moveEnd out cut ends) := by
  obtain ⟨p, q⟩ := ends
  have hbeyond : ¬ Beyond width p.x q.x := h.not_beyond
  have hedge (e : Point) (hout : out e = true) :
      ((cut p q).x = 0 ∧ e.x < 0) ∨ ((cut p q).x = width - 1 ∧ width ≤ e.x) := by
    rw [lands]
    exact edge.imp (fun left => ⟨left.1, left.2 e hout⟩) fun right => ⟨right.1, right.2 e hout⟩
  obtain ⟨hout, hmoved⟩ | ⟨hin, hout, hmoved⟩ | ⟨-, -, hmoved⟩ := moveEnd_cases out cut p q
  · have hin : ¬ out q = true := by
      intro hq
      refine hbeyond ?_
      exact edge.imp (fun left => ⟨left.2 p hout, left.2 q hq⟩) fun right => ⟨right.2 p hout, right.2 q hq⟩
    rw [hmoved]
    exact h.first lasts nonpos (crosses (by simp [hout, hin])) side (hedge p hout)
  · rw [hmoved]
    exact h.second lasts nonpos (crosses (by simp [hout, hin])) side (hedge q hout)
  · rw [hmoved]
    exact h.mono (by linarith)

/-- The cuts at the left and the right edge take no more than a row, and so not all of what is in a row. -/
theorem columnEnds_reaches (h : Reaches width level f ends) (lasts : Lasts f) (nonpos : level ≤ 0)
    (side : 1 ≤ width ∧ width ≤ 1048576) (plain : Both Plain ends) :
    Reaches width (level - 7 / 8) f (columnEnds width ends) := by
  have hleft : Reaches width (level - 7 / 16) f (moveEnd (fun p => decide (p.x < 0)) cutLeft ends) := by
    refine h.moved (x := 0) lasts nonpos side.1 (.inl ⟨rfl, fun e => of_decide_eq_true⟩) rfl ?_
    intro across
    exact cutLeft_crosses plain.1 plain.2 (by simpa using across)
  have hplain : Both Plain (moveEnd (fun p => decide (p.x < 0)) cutLeft ends) := by
    refine moveEnd_both plain ?_ (fun e he _ => he) ?_
    · rintro ⟨hp, hq⟩
      exact h.not_beyond (.inl ⟨of_decide_eq_true hp, of_decide_eq_true hq⟩)
    · intro p q hp hq across
      rw [cutLeft_eq hp.1.modest hq.1.modest]
      have part := cutLeft_part hp.1.modest hq.1.modest (by simpa using across)
      exact ⟨show Ordinary 0 from ⟨by decide, by decide⟩, ordinary_leads.cuts part hp.2 hq.2⟩
  rw [show level - 7 / 8 = level - 7 / 16 - 7 / 16 by ring]
  refine hleft.moved (x := width - 1) lasts (by linarith) side.1 (.inr ⟨rfl, fun e => of_decide_eq_true⟩)
    (wrap_small (by omega)) ?_
  intro across
  exact cutRight_crosses side hplain.1 hplain.2 (by simpa using across)

/-! ## Clipped lines -/

/-- Some point of the segment is nowhere outside the first and the last row and column. -/
def Meets (size p q : Point) : Prop :=
  ∃ s : ℝ, (0 ≤ s ∧ s ≤ 1) ∧
    (0 ≤ p.x + s * (q.x - p.x) ∧ p.x + s * (q.x - p.x) ≤ size.x - 1) ∧
      (0 ≤ p.y + s * (q.y - p.y) ∧ p.y + s * (q.y - p.y) ≤ size.y - 1)

theorem misses_iff {size : Point} :
    misses size p q = true ↔ p = q ∨ Beyond size.x p.x q.x ∨ Beyond size.y p.y q.y := by
  simp only [misses, Beyond, Bool.or_eq_true, Bool.and_eq_true, decide_eq_true_eq, beq_iff_eq]
  tauto

/-- The cuts at the left and the right edge do not move a line off that meets what is drawn on. -/
theorem Meets.near {size : Point} (h : Meets size p q) (side : 1 ≤ size.x ∧ size.x ≤ 1048576) (filled : 1 ≤ size.y)
    (plain : Both Plain (p, q)) :
    ¬ Beyond size.y (columnEnds size.x (p, q)).1.y (columnEnds size.x (p, q)).2.y := by
  obtain ⟨s, hs, hx, htop, hbottom⟩ := h
  have hdown : Reaches size.x (0 - 7 / 8) (fun e => e.y) (columnEnds size.x (p, q)) :=
    columnEnds_reaches ⟨s, hs, hx, htop⟩ lasts_down le_rfl side plain
  have hup : Reaches size.x (1 - size.y - 7 / 8) (fun e => -e.y) (columnEnds size.x (p, q)) := by
    have hfilled : (1 : ℝ) ≤ size.y := by exact_mod_cast filled
    refine columnEnds_reaches ⟨s, hs, hx, ?_⟩ lasts_up (by linarith) side plain
    show 1 - (size.y : ℝ) ≤ -p.y + s * (-q.y - -p.y)
    linarith
  -- whole rows past an edge are more than 7/8 of a row past it
  have habove {y : Int} (out : y < 0) : (y : ℝ) < 0 - 7 / 8 := by
    have hrow : (y : ℝ) ≤ -1 := by exact_mod_cast (show y ≤ -1 by omega)
    linarith
  have hbelow {y : Int} (out : size.y ≤ y) : -(y : ℝ) < 1 - size.y - 7 / 8 := by
    have hrow : (size.y : ℝ) ≤ y := by exact_mod_cast out
    linarith
  rintro (⟨hp, hq⟩ | ⟨hp, hq⟩)
  · exact hdown.not_both ⟨habove hp, habove hq⟩
  · exact hup.not_both ⟨hbelow hp, hbelow hq⟩

theorem clipLine?_eq_none_iff {size : Point} :
    clipLine? size p q = none ↔ p = q ∨ Beyond size.x p.x q.x ∨ Beyond size.y p.y q.y := by
  rw [← misses_iff, clipLine?_eq]
  split <;> simp_all

/-- What is drawn is a line that is not beyond an edge, with its ends moved. -/
theorem clipLine?_eq_some {size : Point} (h : clipLine? size p q = some ends) :
    rowEnds size.y (columnEnds size.x (p, q)) = ends ∧ ¬ Beyond size.x p.x q.x ∧ ¬ Beyond size.y p.y q.y := by
  have hdrawn := mt clipLine?_eq_none_iff.mpr (by rw [h]; exact Option.some_ne_none _)
  rw [clipLine?_eq] at h
  split at h
  · cases h
  · exact ⟨Option.some.inj h, fun hx => hdrawn (.inr (.inl hx)), fun hy => hdrawn (.inr (.inr hy))⟩

/-- A line that is not drawn is a single point, or beyond an edge with both ends, and so does not meet the pixels.
    The ends of one that is drawn are inside exactly if the cuts at the left and the right edge have not left it above
    the top or below the bottom. They have not if an end is inside, if both are between the same two edges, or if the
    line meets the pixels and has coordinates of 20 bits. -/
theorem clipLine_inside_iff {size p q : Point}
    (sides : (1 ≤ size.x ∧ size.x ≤ 2 ^ 24) ∧ 1 ≤ size.y ∧ size.y ≤ 2 ^ 24)
    (small : Both (fun e => |e.x| < 2 ^ 24 ∧ |e.y| < 2 ^ 24) (p, q)) :
    (clipLine? size p q = none ↔ p = q ∨ Beyond size.x p.x q.x ∨ Beyond size.y p.y q.y) ∧
      (clipLine? size p q = none → p = q ∨ ¬ Meets size p q) ∧
      ∀ ends, clipLine? size p q = some ends →
        (Both (Inside size) ends ↔
          ¬ Beyond size.y (columnEnds size.x (p, q)).1.y (columnEnds size.x (p, q)).2.y) ∧
        (Inside size p ∨ Inside size q ∨ (Within size.x p.x ∧ Within size.x q.x) ∨
          (Within size.y p.y ∧ Within size.y q.y) → Both (Inside size) ends) ∧
        (size.x ≤ 2 ^ 20 → Both (fun e => |e.x| < 2 ^ 20 ∧ |e.y| < 2 ^ 20) (p, q) → Meets size p q →
          Both (Inside size) ends) := by
  refine ⟨clipLine?_eq_none_iff, ?_, ?_⟩
  · intro h
    rcases clipLine?_eq_none_iff.mp h with heq | hx | hy
    · exact .inl heq
    · exact .inr fun ⟨s, hs, hmeets, _⟩ => hx.outside hs hmeets
    · exact .inr fun ⟨s, hs, _, hmeets⟩ => hy.outside hs hmeets
  · intro ends h
    obtain ⟨rfl, hx, hy⟩ := clipLine?_eq_some h
    obtain ⟨hp, hq⟩ := small
    have hcolumns := columnEnds_inside below_leads modest_leads sides.1
      ⟨⟨below_leads.keeps hp.1, hp.2⟩, below_leads.keeps hq.1, hq.2⟩ hx
    have hiff := rowEnds_inside_iff sides.2 sides.1.2 hcolumns
    refine ⟨hiff, ?_, ?_⟩
    · intro hcase
      exact hiff.mpr (columnEnds_near sides.1 sides.2.2 ⟨below_leads.keeps hp.1, below_leads.keeps hq.1⟩ hx hy hcase)
    · intro narrow ⟨hp, hq⟩ meets
      have plain : Both Plain (p, q) := ⟨⟨.of_abs hp.1, .of_abs hp.2⟩, .of_abs hq.1, .of_abs hq.2⟩
      exact hiff.mpr (meets.near ⟨sides.1.1, narrow⟩ sides.2.1 plain)

/-- A line through the corner is cut at both edges there. -/
theorem clipLine_inside_iff_across : clipLine? ⟨100, 50⟩ ⟨-20, 30⟩ ⟨60, -10⟩ = some (⟨0, 20⟩, ⟨40, 0⟩) ∧
    Both (Inside ⟨100, 50⟩) (⟨0, 20⟩, ⟨40, 0⟩) := by
  have hclip : clipLine? ⟨100, 50⟩ ⟨-20, 30⟩ ⟨60, -10⟩ = some (⟨0, 20⟩, ⟨40, 0⟩) := by decide +kernel
  have hmeets : Meets ⟨100, 50⟩ ⟨-20, 30⟩ ⟨60, -10⟩ := by
    refine ⟨1 / 2, ?_, ?_, ?_⟩ <;> norm_num
  have hinside := ((clipLine_inside_iff (by decide) (by unfold Both; decide)).2.2 _ hclip).2.2
  exact ⟨hclip, hinside (by decide) (by unfold Both; decide) hmeets⟩

/-- A line past the top left corner is cut at the left edge and left above the top, with its ends outside. -/
theorem past_a_corner : clipLine? ⟨100, 100⟩ ⟨-10, 5⟩ ⟨5, -10⟩ = some (⟨-5, 0⟩, ⟨5, -10⟩) ∧
    ¬ Inside ⟨100, 100⟩ ⟨-5, 0⟩ ∧ ¬ Inside ⟨100, 100⟩ ⟨5, -10⟩ ∧ ¬ Meets ⟨100, 100⟩ ⟨-10, 5⟩ ⟨5, -10⟩ := by
  refine ⟨by decide +kernel, by unfold Inside Within; decide, by unfold Inside Within; decide, ?_⟩
  -- on this line the coordinates add up to -5
  rintro ⟨s, -, ⟨hx, -⟩, hy, -⟩
  push_cast at hx hy
  linarith

end Easel.Pen
