/-
  Easel.Proofs.Mesh.Series — what is drawn of meshes that are pushed and then rendered.

  Meshes that follow each other and are like the first of them make a `Series`; a cache merges each series
  into one draw call. Drawn directly, every mesh has its own primitives; drawn from the cache, each series
  has the primitives of all its corners.
  - `render_cached`: the draw calls of a cache are the series of what was pushed.
  - `drawn_cached`: what is drawn from the cache, series by series.
  - `drawn_cached_eq_iff`: it is what is drawn directly if and only if no series of strips or fans is linked.
-/
import Easel.Proofs.Mesh.Cache
import Easel.Proofs.Mesh.Primitives
import Mathlib.Data.List.Flatten
import Mathlib.Data.List.TakeWhile

namespace Easel.Mesh

/-! ## Series -/

/-- A mesh, and those behind it that go into its draw call. -/
structure Series where
  first : Submission
  rest : List Submission

namespace Series

def members (r : Series) : List Submission := r.first :: r.rest

def topology (r : Series) : Topology := r.first.mesh.state.topology

def corners (r : Series) : List (List (Option Corner)) := r.members.map fun s => s.mesh.resolved

def together (r : Series) : List (List (Option Corner)) := r.topology.primitives r.corners.flatten

def apart (r : Series) : List (List (Option Corner)) := r.corners.flatMap r.topology.primitives

def Linked (r : Series) : Prop := r.topology.Linked r.corners

def Countable (r : Series) : Prop := (r.members.flatMap fun s => s.mesh.vertices).length < 4294967296

def block (r : Series) : Block := r.rest.foldl Block.absorb ((Block.opened r.first).absorb r.first)

end Series

def like (first s : Submission) : Bool := (Block.opened first).takes s

def series : List Submission → List Series
  | [] => []
  | s :: ss => ⟨s, ss.takeWhile (like s)⟩ :: series (ss.dropWhile (like s))
termination_by ss => ss.length
decreasing_by exact Nat.lt_succ_of_le (List.dropWhile_sublist _).length_le

theorem members_series (ss : List Submission) : (series ss).flatMap Series.members = ss := by
  fun_induction series ss with
  | case1 => rfl
  | case2 s ss ih =>
    rw [List.flatMap_cons, ih, Series.members, List.cons_append, List.takeWhile_append_dropWhile]

theorem like_of_mem_rest {ss : List Submission} {r : Series} (hr : r ∈ series ss) : ∀ s ∈ r.rest, like r.first s = true := by
  fun_induction series ss with
  | case1 => cases hr
  | case2 s ss ih =>
    rcases List.mem_cons.mp hr with rfl | hr
    · exact fun t ht => List.mem_takeWhile_imp ht
    · exact ih hr

theorem mem_of_mem_members {ss : List Submission} {r : Series} (hr : r ∈ series ss) {s : Submission} (hs : s ∈ r.members) :
    s ∈ ss := by
  rw [← members_series ss]
  exact List.mem_flatMap.mpr ⟨r, hr, hs⟩

/-- All series are countable if the vertices of all of them together are. -/
theorem countable_of_few {ss : List Submission} (few : (ss.flatMap fun s => s.mesh.vertices).length < 4294967296) :
    ∀ r ∈ series ss, r.Countable := by
  intro r hr
  have hmembers : r.members.Sublist ss := by
    rw [← members_series ss]
    exact List.sublist_flatten_of_mem (List.mem_map_of_mem hr)
  exact Nat.lt_of_le_of_lt (hmembers.flatMap _).length_le few

theorem topology_eq {ss : List Submission} {r : Series} (hr : r ∈ series ss) {s : Submission} (hs : s ∈ r.members) :
    s.mesh.state.topology = r.topology := by
  rcases List.mem_cons.mp hs with rfl | hs
  · rfl
  · have hstate := (Bool.and_eq_true_iff.mp (like_of_mem_rest hr s hs)).2
    exact (congrArg Prod.fst ((State.beq_iff _ _).mp hstate).1).symm

/-! ## Merging -/

/-- Meshes that the last block takes all go into it. -/
theorem foldl_pushed_of_takes (bs : List Block) {b : Block} {ss : List Submission} (h : ∀ s ∈ ss, b.takes s = true) :
    ss.foldl pushed (bs ++ [b]) = bs ++ [ss.foldl Block.absorb b] := by
  induction ss generalizing b with
  | nil => rfl
  | cons s ss ih =>
    rw [List.forall_mem_cons] at h
    have hpushed : pushed (bs ++ [b]) s = bs ++ [b.absorb s] := by
      rw [pushed, List.getLast?_concat, List.dropLast_concat]
      exact if_pos h.1
    rw [List.foldl_cons, hpushed, List.foldl_cons]
    exact ih h.2

theorem foldl_absorb_state (b : Block) (ss : List Submission) :
    (ss.foldl Block.absorb b).screenSpace = b.screenSpace ∧ (ss.foldl Block.absorb b).state = b.state := by
  induction ss generalizing b with
  | nil => exact ⟨rfl, rfl⟩
  | cons t ss ih => exact ih _

theorem takes_block (r : Series) (s : Submission) : r.block.takes s = like r.first s := by
  obtain ⟨hspace, hstate⟩ := foldl_absorb_state ((Block.opened r.first).absorb r.first) r.rest
  rw [Series.block, Block.takes, hspace, hstate]
  rfl

/-- A block that does not take the next mesh is finished. -/
theorem foldl_pushed (bs : List Block) {ss : List Submission}
    (h : ∀ last ∈ bs.getLast?, ∀ s ∈ ss.head?, last.takes s = false) :
    ss.foldl pushed bs = bs ++ (series ss).map Series.block := by
  fun_induction series ss generalizing bs with
  | case1 => rw [List.map_nil, List.append_nil, List.foldl_nil]
  | case2 s ss ih =>
    have hfresh : pushed bs s = bs ++ [(Block.opened s).absorb s] := by
      rw [pushed]
      cases hlast : bs.getLast? with
      | none => rfl
      | some last =>
        have : last.takes s = false := h last hlast s rfl
        simp [this]
    have hrest : (ss.takeWhile (like s)).foldl pushed (bs ++ [(Block.opened s).absorb s]) =
        bs ++ [Series.block ⟨s, ss.takeWhile (like s)⟩] :=
      foldl_pushed_of_takes bs fun t ht => List.mem_takeWhile_imp ht
    have hstops : ∀ last ∈ (bs ++ [Series.block ⟨s, ss.takeWhile (like s)⟩]).getLast?,
        ∀ t ∈ (ss.dropWhile (like s)).head?, last.takes t = false := by
      intro last hlast t ht
      rw [List.getLast?_concat] at hlast
      rw [← Option.some.inj hlast, takes_block]
      have := List.head?_dropWhile_not (like s) ss
      rwa [show (ss.dropWhile (like s)).head? = some t from ht] at this
    rw [List.map_cons, List.append_cons, ← ih _ hstops, ← hrest, List.foldl_cons, hfresh, ← List.foldl_append,
      List.takeWhile_append_dropWhile]

def cached (ss : List Submission) : Cache := Cache.run (ss.map Cache.Move.push)

/-- Its draw calls are the series. -/
theorem render_cached (ss : List Submission) : (cached ss).render = (series ss).map fun r => r.block.submission := by
  have hblocks : blocksOf (ss.map Cache.Move.push) = (series ss).map Series.block := by
    rw [blocksOf, List.foldl_map]
    exact foldl_pushed [] (by simp)
  rw [cached, run_eq_layout, hblocks, render_layout, List.map_map]
  rfl

theorem corners_block (r : Series) : r.block.corners = r.members.flatMap fun s => s.mesh.corners := by
  have hfold (b : Block) (ss : List Submission) :
      (ss.foldl Block.absorb b).corners = b.corners ++ ss.flatMap fun s => s.mesh.corners := by
    induction ss generalizing b with
    | nil => rw [List.foldl_nil, List.flatMap_nil, List.append_nil]
    | cons t ss ih => rw [List.foldl_cons, ih, List.flatMap_cons, ← List.append_assoc, Block.absorb]
  exact hfold _ r.rest

/-- What a block holds grows by the meshes that it takes. -/
theorem holds_foldl_absorb {b : Block} {g : List Kept} (h : b.Holds g) {ss : List Submission}
    (takes : ∀ s ∈ ss, b.takes s = true) (inRange : ∀ s ∈ ss, ∀ i ∈ s.mesh.indices, i < s.mesh.vertices.length)
    (few : (ss.foldl Block.absorb b).corners.length < 4294967296) :
    (ss.foldl Block.absorb b).Holds (g ++ ss.map fun s => { submission := s }) := by
  induction ss using List.reverseRecOn with
  | nil => rwa [List.map_nil, List.append_nil]
  | append_singleton ss s ih =>
    rw [List.foldl_concat] at few ⊢
    rw [List.forall_mem_append, List.forall_mem_singleton] at takes inRange
    have hfew : (ss.foldl Block.absorb b).corners.length < 4294967296 := by
      rw [Block.absorb, List.length_append] at few
      omega
    obtain ⟨hspace, hstate⟩ := foldl_absorb_state b ss
    obtain ⟨samespace, samestate⟩ := Bool.and_eq_true_iff.mp takes.2
    rw [List.map_append, ← List.append_assoc]
    refine (ih takes.1 inRange.1 hfew).absorb ?_ ?_ inRange.2 few
    · rw [hspace, eq_of_beq samespace]
    · rw [hstate]
      exact State.alike_of_beq samestate

/-- The draw call of a series holds its members. -/
theorem block_holds {ss : List Submission} {r : Series} (hr : r ∈ series ss)
    (inRange : ∀ s ∈ ss, ∀ i ∈ s.mesh.indices, i < s.mesh.vertices.length) (countable : r.Countable) :
    r.block.Holds (r.members.map fun s => { submission := s }) := by
  have hlength (l : List Submission) :
      (l.flatMap fun s => s.mesh.corners).length = (l.flatMap fun s => s.mesh.vertices).length := by
    simp [List.length_flatMap]
  have hfew : r.block.corners.length < 4294967296 := by
    rw [corners_block, hlength]
    exact countable
  have hinRange : ∀ s ∈ r.members, ∀ i ∈ s.mesh.indices, i < s.mesh.vertices.length :=
    fun s hs => inRange s (mem_of_mem_members hr hs)
  rw [Series.members, List.forall_mem_cons] at hinRange
  have hopened : ((Block.opened r.first).absorb r.first).Holds [{ submission := r.first }] := by
    refine (Block.Holds.opened r.first).absorb rfl ⟨rfl, .inl rfl⟩ hinRange.1 ?_
    rw [corners_block, Series.members, List.flatMap_cons, List.length_append] at hfew
    exact Nat.lt_of_le_of_lt (Nat.le_add_right _ _) hfew
  exact holds_foldl_absorb hopened (like_of_mem_rest hr) hinRange.2 hfew

/-! ## Drawing -/

def primitives (m : Mesh) : List (List (Option Corner)) := m.state.topology.primitives m.resolved

theorem length_primitives (m : Mesh) : m.primitives.length = m.state.topology.count m.indices.length := by
  rw [primitives, Topology.length_primitives, resolved, List.length_map]

def drawn (ss : List Submission) : List (List (Option Corner)) := ss.flatMap fun s => s.mesh.primitives

/-- Drawn directly, every member of a series has its own primitives. -/
theorem drawn_eq (ss : List Submission) : drawn ss = (series ss).flatMap Series.apart := by
  conv_lhs => rw [drawn, ← members_series ss, List.flatMap_assoc]
  refine congrArg List.flatten (List.map_congr_left fun r hr => ?_)
  rw [Series.apart, Series.corners, List.flatMap_map]
  refine congrArg List.flatten (List.map_congr_left fun s hs => ?_)
  rw [primitives, topology_eq hr hs]

/-- Drawn from the cache, a series has the primitives of all its corners. -/
theorem drawn_cached {ss : List Submission} (inRange : ∀ s ∈ ss, ∀ i ∈ s.mesh.indices, i < s.mesh.vertices.length)
    (countable : ∀ r ∈ series ss, r.Countable) :
    drawn (cached ss).render = (series ss).flatMap Series.together := by
  rw [drawn, render_cached, List.flatMap_map]
  refine congrArg List.flatten (List.map_congr_left fun r hr => ?_)
  have hcorners : r.block.submission.mesh.resolved = r.corners.flatten := by
    rw [(block_holds hr inRange (countable r hr)).resolved_eq, List.flatMap_map]
    rfl
  have htopology : r.block.state.topology = r.topology := by
    rw [Series.block, (foldl_absorb_state _ r.rest).2]
    rfl
  rw [primitives, hcorners, Series.together, ← htopology]
  rfl

/-- Every mesh has as many corners as make up whole primitives. -/
def Whole (ss : List Submission) : Prop := ∀ s ∈ ss, s.mesh.state.topology.stride ∣ s.mesh.indices.length

theorem together_of_not_linked {ss : List Submission} (whole : Whole ss) {r : Series} (hr : r ∈ series ss)
    (h : ¬ r.Linked) : r.together = r.apart := by
  refine Topology.together_eq_apart h fun _ cs hcs => ?_
  obtain ⟨s, hs, rfl⟩ := List.mem_map.mp hcs
  rw [← topology_eq hr hs, resolved, List.length_map]
  exact whole s (mem_of_mem_members hr hs)

theorem length_flatMap_le {α β : Type} {f g : α → List β} {l : List α} (le : ∀ a ∈ l, (f a).length ≤ (g a).length) :
    (l.flatMap f).length ≤ (l.flatMap g).length := by
  induction l with
  | nil => exact Nat.le_refl _
  | cons a l ih =>
    rw [List.forall_mem_cons] at le
    have := ih le.2
    simp only [List.flatMap_cons, List.length_append]
    omega

/-- Lists put together are as long as others, none of which is shorter, only if each is. -/
theorem length_eq_of_flatMap {α β : Type} {f g : α → List β} {l : List α} (le : ∀ a ∈ l, (f a).length ≤ (g a).length)
    (h : (l.flatMap g).length = (l.flatMap f).length) : ∀ a ∈ l, (f a).length = (g a).length := by
  induction l with
  | nil =>
    intro a ha
    cases ha
  | cons a l ih =>
    rw [List.forall_mem_cons] at le ⊢
    have hrest := length_flatMap_le le.2
    simp only [List.flatMap_cons, List.length_append] at h
    exact ⟨by omega, ih le.2 (by omega)⟩

/-- What is drawn from the cache is what is drawn directly, unless a series is linked. -/
theorem drawn_cached_eq_iff {ss : List Submission}
    (inRange : ∀ s ∈ ss, ∀ i ∈ s.mesh.indices, i < s.mesh.vertices.length) (whole : Whole ss)
    (countable : ∀ r ∈ series ss, r.Countable) : drawn (cached ss).render = drawn ss ↔ ∀ r ∈ series ss, ¬ r.Linked := by
  rw [drawn_cached inRange countable, drawn_eq]
  constructor
  · intro h r hr linked
    have hlt : r.apart.length < r.together.length := Topology.length_apart_lt linked
    have hle : ∀ q ∈ series ss, q.apart.length ≤ q.together.length := by
      intro q hq
      by_cases hlinked : q.Linked
      · exact Nat.le_of_lt (Topology.length_apart_lt hlinked)
      · rw [together_of_not_linked whole hq hlinked]
    exact Nat.ne_of_lt hlt (length_eq_of_flatMap hle (congrArg List.length h) r hr)
  · intro h
    exact congrArg List.flatten (List.map_congr_left fun r hr => together_of_not_linked whole hr (h r hr))

end Easel.Mesh
