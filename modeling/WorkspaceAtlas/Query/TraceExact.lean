/-
# What a trace has

The search takes the nodes by their distance, each once.  As long as it may take a step at all,
what it leaves out it reports; with a depth of zero it leaves out the edges of the seed and reports
nothing.
-/
import WorkspaceAtlas.Query.Trace

namespace WorkspaceAtlas

open Transition

namespace TraceGraph

/-- The rows of both statements. -/
def nodeRows (g : TraceGraph) (direction current : String) (depth : ℕ) :
    List (TraceEdge × String) :=
  g.outboundRows direction current depth ++ g.inboundRows direction current depth

/-- The edges of a node, with the depth that follows that of the node. -/
def edgesAt (g : TraceGraph) (direction : String) (node : String × ℕ) : List TraceEdge :=
  (g.nodeRows direction node.1 node.2).map Prod.fst

/-- The direction leads from one node to the other one. -/
def Follows (g : TraceGraph) (direction x y : String) : Prop :=
  ∃ row ∈ g.nodeRows direction x 0, row.2 = y

variable {g : TraceGraph} {direction x y : String} {d : ℕ}

/-- Where the edges lead does not depend on the depth. -/
lemma map_snd_nodeRows (d d' : ℕ) :
    (g.nodeRows direction x d).map Prod.snd = (g.nodeRows direction x d').map Prod.snd := by
  simp only [nodeRows, outboundRows, inboundRows, List.map_append]
  split_ifs
  all_goals simp only [List.map_map, List.map_nil, Function.comp_def]

lemma follows_iff (d : ℕ) :
    g.Follows direction x y ↔ y ∈ (g.nodeRows direction x d).map Prod.snd := by
  rw [map_snd_nodeRows d 0, List.mem_map]
  rfl

lemma nodeRows_eq_nil (h : g.nodeRows direction x 0 = []) (d : ℕ) :
    g.nodeRows direction x d = [] := by
  have hrefs : (g.nodeRows direction x d).map Prod.snd = [] := by
    rw [map_snd_nodeRows d 0, h, List.map_nil]
  exact List.map_eq_nil_iff.mp hrefs

end TraceGraph

/-- What is expected of a trace. -/
structure TraceExact (g : TraceGraph) (seed direction : String) (maxRecords : ℤ)
    (s : TraceState) : Prop where
  bounded : s.edges.length ≤ maxRecords
  queuedOnce : ((s.popped ++ s.queue).map Prod.fst).Nodup
  depth : ∀ e ∈ s.edges, ∃ x d, IsDist (g.Follows direction) seed d x ∧
    e ∈ g.edgesAt direction (x, d)
  complete : s.truncatedByDepth = false → s.truncatedByRecords = false →
    ∃ nodes : List (String × ℕ), (nodes.map Prod.fst).Nodup ∧
      (∀ x d, (x, d) ∈ nodes ↔ IsDist (g.Follows direction) seed d x) ∧
      s.edges = nodes.flatMap (g.edgesAt direction) ∧ s.visited.card = nodes.length
  flagged : ∀ x d, IsDist (g.Follows direction) seed d x → ∀ e ∈ g.edgesAt direction (x, d),
    e ∉ s.edges → s.truncatedByDepth = true ∨ s.truncatedByRecords = true

namespace Trace

variable {g : TraceGraph} {seed direction x y : String} {maxDepth maxRecords : ℤ} {d k : ℕ}
  {expanded : List (String × ℕ)} {scanned r : List (TraceEdge × String)}
  {row : TraceEdge × String} {s : TraceState}

/-! ## The invariant -/

/-- What is known of the search; the nodes `expanded` are done, and the rows `scanned` of the node
that comes next. -/
structure Searched (g : TraceGraph) (seed direction : String) (maxDepth maxRecords : ℤ)
    (expanded : List (String × ℕ)) (scanned : List (TraceEdge × String)) (s : TraceState) :
    Prop where
  once : ((s.popped ++ s.queue).map Prod.fst).Nodup
  sorted : (s.popped ++ s.queue).Pairwise fun p q => p.2 ≤ q.2
  dist : ∀ p ∈ s.popped ++ s.queue, IsDist (g.Follows direction) seed p.2 p.1
  shallow : ∀ p ∈ s.queue, (p.2 : ℤ) < maxDepth
  start : seed ∈ s.visited
  known : ∀ p ∈ s.popped ++ s.queue, p.1 ∈ s.visited
  far : ∀ x ∈ s.visited, x ∈ (s.popped ++ s.queue).map Prod.fst ∨
    s.truncatedByDepth = true ∧ ∃ d, IsDist (g.Follows direction) seed d x ∧ maxDepth ≤ d
  bounded : (s.edges.length : ℤ) ≤ maxRecords
  full : s.truncatedByRecords = true → maxRecords ≤ s.edges.length
  drawn : ∀ e ∈ s.edges, ∃ p ∈ s.popped, e ∈ g.edgesAt direction p
  edges : s.truncatedByRecords = false →
    s.edges = expanded.flatMap (g.edgesAt direction) ++ scanned.map Prod.fst
  closed : s.truncatedByRecords = false → ∀ p ∈ expanded, ∀ y, g.Follows direction p.1 y →
    y ∈ s.visited
  seen : s.truncatedByRecords = false → ∀ row ∈ scanned, row.2 ∈ s.visited

/-- Between two nodes: the queue spans at most two distances. -/
structure Settled (g : TraceGraph) (seed direction : String) (maxDepth maxRecords : ℤ)
    (s : TraceState) : Prop
    extends Searched g seed direction maxDepth maxRecords s.popped [] s where
  near : ∀ p ∈ s.queue, ∀ q ∈ s.queue, q.2 ≤ p.2 + 1

/-- Within a node. -/
structure Scanning (g : TraceGraph) (seed direction : String) (maxDepth maxRecords : ℤ)
    (x : String) (d : ℕ) (expanded : List (String × ℕ)) (scanned : List (TraceEdge × String))
    (s : TraceState) : Prop
    extends Searched g seed direction maxDepth maxRecords expanded scanned s where
  popped : s.popped = expanded ++ [(x, d)]
  depth_lt : (d : ℤ) < maxDepth
  near : ∀ q ∈ s.queue, q.2 ≤ d + 1

lemma Scanning.dist_current
    (h : Scanning g seed direction maxDepth maxRecords x d expanded scanned s) :
    IsDist (g.Follows direction) seed d x :=
  h.dist (x, d) (List.mem_append_left _ (by rw [h.popped]; simp))

/-- What was taken before the node is not farther than the node. -/
lemma Scanning.le_of_mem_popped
    (h : Scanning g seed direction maxDepth maxRecords x d expanded scanned s)
    {p : String × ℕ} (hp : p ∈ s.popped) : p.2 ≤ d := by
  have hsorted := (List.pairwise_append.mp h.sorted).1
  rw [h.popped] at hp hsorted
  rcases List.mem_append.mp hp with hp | hp
  · exact (List.pairwise_append.mp hsorted).2.2 p hp (x, d) (List.mem_singleton.mpr rfl)
  · rw [List.mem_singleton.mp hp]

/-- **Nearer nodes are known.** -/
lemma Scanning.mem_visited_of_le
    (h : Scanning g seed direction maxDepth maxRecords x d expanded scanned s)
    (hflag : s.truncatedByRecords = false) (hk : k ≤ d)
    (hy : IsDist (g.Follows direction) seed k y) : y ∈ s.visited := by
  induction k generalizing y with
  | zero => rw [hy.eq_seed]; exact h.start
  | succ k ih =>
    obtain ⟨w, hw, hfollows⟩ := hy.exists_pred
    rcases h.far w (ih (by omega) hw) with hmem | ⟨-, j, hj, hfar⟩
    · obtain ⟨p, hp, rfl⟩ := List.mem_map.mp hmem
      have hdepth : p.2 = k := (h.dist p hp).eq hw
      -- it is nearer than the node, so that it was expanded before
      rcases List.mem_append.mp hp with hpopped | hqueue
      · rw [h.popped] at hpopped
        rcases List.mem_append.mp hpopped with hexpanded | hlast
        · exact h.closed hflag p hexpanded y hfollows
        · rw [List.mem_singleton.mp hlast] at hdepth
          simp only at hdepth
          omega
      · have hle := (List.pairwise_append.mp h.sorted).2.2 (x, d) (by rw [h.popped]; simp) p hqueue
        simp only at hle
        omega
    · have hdepth := hj.eq hw
      have hlt := h.depth_lt
      omega

/-- A successor that was not seen is one step farther than the node. -/
lemma Scanning.dist_new
    (h : Scanning g seed direction maxDepth maxRecords x d expanded scanned s)
    (hflag : s.truncatedByRecords = false) (hrow : row ∈ g.nodeRows direction x d)
    (hnew : row.2 ∉ s.visited) : IsDist (g.Follows direction) seed (d + 1) row.2 := by
  refine h.dist_current.step ((TraceGraph.follows_iff d).mpr (List.mem_map_of_mem hrow))
    fun k hk hdist => hnew (h.mem_visited_of_le hflag hk hdist)

/-! ## Rows -/

/-- A row that leads to a node that was seen. -/
lemma Scanning.row_seen
    (h : Scanning g seed direction maxDepth maxRecords x d expanded scanned s)
    (hrow : row ∈ g.nodeRows direction x d) (hroom : (s.edges.length : ℤ) < maxRecords)
    (hseen : row.2 ∈ s.visited) :
    Scanning g seed direction maxDepth maxRecords x d expanded (scanned ++ [row])
      { s with edges := s.edges ++ [row.1] } where
  once := h.once
  sorted := h.sorted
  dist := h.dist
  shallow := h.shallow
  start := h.start
  known := h.known
  far := h.far
  bounded := by
    rw [List.length_append, List.length_singleton]
    omega
  full hflag := absurd (h.full hflag) (by omega)
  drawn e he := by
    rcases List.mem_append.mp he with he | he
    · exact h.drawn e he
    · rw [List.mem_singleton.mp he]
      refine ⟨(x, d), ?_, List.mem_map_of_mem hrow⟩
      show (x, d) ∈ s.popped
      rw [h.popped]
      exact List.mem_append_right _ (List.mem_singleton.mpr rfl)
  edges hflag := by
    show s.edges ++ [row.1] = _
    rw [h.edges hflag, List.map_append, List.append_assoc]
    rfl
  closed := h.closed
  seen hflag r hr := by
    rcases List.mem_append.mp hr with hr | hr
    · exact h.seen hflag r hr
    · rw [List.mem_singleton.mp hr]
      exact hseen
  popped := h.popped
  depth_lt := h.depth_lt
  near := h.near

/-- A row that leads to a new node at the greatest depth: the node is not queued. -/
lemma Scanning.mark_far
    (h : Scanning g seed direction maxDepth maxRecords x d expanded scanned s)
    (hdist : IsDist (g.Follows direction) seed (d + 1) y) (hfar : maxDepth ≤ d + 1) :
    Scanning g seed direction maxDepth maxRecords x d expanded scanned
      { s with visited := insert y s.visited, truncatedByDepth := true } where
  once := h.once
  sorted := h.sorted
  dist := h.dist
  shallow := h.shallow
  start := Finset.mem_insert_of_mem h.start
  known p hp := Finset.mem_insert_of_mem (h.known p hp)
  far z hz := by
    rcases Finset.mem_insert.mp hz with rfl | hz
    · exact .inr ⟨rfl, d + 1, hdist, by exact_mod_cast hfar⟩
    · exact (h.far z hz).imp_right fun ⟨_, hz⟩ => ⟨rfl, hz⟩
  bounded := h.bounded
  full := h.full
  drawn := h.drawn
  edges := h.edges
  closed hflag p hp z hz := Finset.mem_insert_of_mem (h.closed hflag p hp z hz)
  seen hflag r hr := Finset.mem_insert_of_mem (h.seen hflag r hr)
  popped := h.popped
  depth_lt := h.depth_lt
  near := h.near

/-- A row that leads to a new node: the node is queued behind the others. -/
lemma Scanning.push
    (h : Scanning g seed direction maxDepth maxRecords x d expanded scanned s)
    (hdist : IsDist (g.Follows direction) seed (d + 1) y) (hnew : y ∉ s.visited)
    (hshallow : (d + 1 : ℤ) < maxDepth) :
    Scanning g seed direction maxDepth maxRecords x d expanded scanned
      { s with visited := insert y s.visited, queue := s.queue ++ [(y, d + 1)] } where
  once := by
    simp only [← List.append_assoc, List.map_append, List.map_cons, List.map_nil]
    rw [← List.map_append]
    refine List.nodup_append.mpr ⟨h.once, List.nodup_singleton y, fun a ha b hb => ?_⟩
    rintro rfl
    obtain ⟨p, hp, hname⟩ := List.mem_map.mp ha
    refine hnew ?_
    rw [← List.mem_singleton.mp hb, ← hname]
    exact h.known p hp
  sorted := by
    simp only [← List.append_assoc]
    refine List.pairwise_append.mpr ⟨h.sorted, List.pairwise_singleton _ _, fun p hp q hq => ?_⟩
    rw [List.mem_singleton.mp hq]
    rcases List.mem_append.mp hp with hp | hp
    · exact (h.le_of_mem_popped hp).trans (Nat.le_succ d)
    · exact h.near p hp
  dist p hp := by
    simp only [← List.append_assoc] at hp
    rcases List.mem_append.mp hp with hp | hp
    · exact h.dist p hp
    · rw [List.mem_singleton.mp hp]
      exact hdist
  shallow p hp := by
    rcases List.mem_append.mp hp with hp | hp
    · exact h.shallow p hp
    · rw [List.mem_singleton.mp hp]
      exact_mod_cast hshallow
  start := Finset.mem_insert_of_mem h.start
  known p hp := by
    simp only [← List.append_assoc] at hp
    rcases List.mem_append.mp hp with hp | hp
    · exact Finset.mem_insert_of_mem (h.known p hp)
    · rw [List.mem_singleton.mp hp]
      exact Finset.mem_insert_self y s.visited
  far z hz := by
    simp only [← List.append_assoc]
    rw [List.map_append]
    rcases Finset.mem_insert.mp hz with rfl | hz
    · exact .inl (List.mem_append_right _ (List.mem_singleton.mpr rfl))
    · exact (h.far z hz).imp_left (List.mem_append_left _)
  bounded := h.bounded
  full := h.full
  drawn := h.drawn
  edges := h.edges
  closed hflag p hp z hz := Finset.mem_insert_of_mem (h.closed hflag p hp z hz)
  seen hflag r hr := Finset.mem_insert_of_mem (h.seen hflag r hr)
  popped := h.popped
  depth_lt := h.depth_lt
  near q hq := by
    rcases List.mem_append.mp hq with hq | hq
    · exact h.near q hq
    · rw [List.mem_singleton.mp hq]

/-- What is left out for want of room. -/
lemma Scanning.stop
    (h : Scanning g seed direction maxDepth maxRecords x d expanded scanned s)
    (hfull : maxRecords ≤ s.edges.length) (scanned' : List (TraceEdge × String)) :
    Scanning g seed direction maxDepth maxRecords x d expanded scanned'
      { s with truncatedByRecords := true } where
  once := h.once
  sorted := h.sorted
  dist := h.dist
  shallow := h.shallow
  start := h.start
  known := h.known
  far := h.far
  bounded := h.bounded
  full _ := hfull
  drawn := h.drawn
  edges hflag := absurd hflag (by simp)
  closed hflag := absurd hflag (by simp)
  seen hflag := absurd hflag (by simp)
  popped := h.popped
  depth_lt := h.depth_lt
  near := h.near

/-- **The rows of a statement.** -/
lemma Scanning.scan
    (h : Scanning g seed direction maxDepth maxRecords x d expanded scanned s)
    (hrows : ∀ row ∈ r, row ∈ g.nodeRows direction x d) :
    Scanning g seed direction maxDepth maxRecords x d expanded (scanned ++ r)
      (traceRows maxDepth maxRecords d r s) := by
  induction r generalizing scanned s with
  | nil => rwa [List.append_nil]
  | cons row rows ih =>
    have hrow := hrows row List.mem_cons_self
    have hrest := fun other hother => hrows other (List.mem_cons_of_mem row hother)
    rw [traceRows]
    split
    next hfull => exact h.stop hfull _
    next hroom =>
      have hflag : s.truncatedByRecords = false := by
        by_contra hflag
        exact hroom (h.full (by simpa using hflag))
      rw [← List.singleton_append, ← List.append_assoc]
      refine ih ?_ hrest
      split
      next hseen => exact h.row_seen hrow (by omega) hseen
      next hnew =>
        have hdist := h.dist_new hflag hrow hnew
        -- the edge is added to a state that has seen the node
        split
        next hfar => exact (h.mark_far hdist hfar).row_seen hrow (by simpa using hroom) (by simp)
        next hnear =>
          exact (h.push hdist hnew (by omega)).row_seen hrow (by simpa using hroom) (by simp)

/-! ## Nodes -/

/-- The next node is taken from the queue. -/
lemma Settled.pop {queue : List (String × ℕ)}
    (h : Settled g seed direction maxDepth maxRecords s) (hqueue : s.queue = (x, d) :: queue) :
    Scanning g seed direction maxDepth maxRecords x d s.popped []
      { s with queue := queue, popped := s.popped ++ [(x, d)] } := by
  have hhistory : s.popped ++ [(x, d)] ++ queue = s.popped ++ s.queue := by
    rw [hqueue, List.append_assoc, List.singleton_append]
  have hfirst : (x, d) ∈ s.queue := by
    rw [hqueue]
    exact List.mem_cons_self
  have htail : ∀ q ∈ queue, q ∈ s.queue := fun q hq => by
    rw [hqueue]
    exact List.mem_cons_of_mem _ hq
  exact
    { once := by simpa only [hhistory] using h.once
      sorted := by simpa only [hhistory] using h.sorted
      dist := by simpa only [hhistory] using h.dist
      shallow := fun p hp => h.shallow p (htail p hp)
      start := h.start
      known := by simpa only [hhistory] using h.known
      far := by simpa only [hhistory] using h.far
      bounded := h.bounded
      full := h.full
      drawn := fun e he =>
        (h.drawn e he).imp fun p hp => hp.imp_left (List.mem_append_left [(x, d)])
      edges := h.edges
      closed := h.closed
      seen := h.seen
      popped := rfl
      depth_lt := h.shallow (x, d) hfirst
      near := fun q hq => h.near (x, d) hfirst q (htail q hq) }

/-- A node whose rows are done. -/
lemma Scanning.settle
    (h : Scanning g seed direction maxDepth maxRecords x d expanded
      (g.nodeRows direction x d) s) : Settled g seed direction maxDepth maxRecords s where
  toSearched :=
    { h with
      edges := fun hflag => by
        rw [h.edges hflag, h.popped, List.flatMap_append, List.map_nil, List.append_nil,
          List.flatMap_singleton]
        rfl
      closed := fun hflag p hp z hz => by
        rw [h.popped] at hp
        rcases List.mem_append.mp hp with hp | hp
        · exact h.closed hflag p hp z hz
        · rw [List.mem_singleton.mp hp] at hz
          obtain ⟨row, hrow, rfl⟩ := List.mem_map.mp ((TraceGraph.follows_iff d).mp hz)
          exact h.seen hflag row hrow
      seen := fun _ row hrow => absurd hrow List.not_mem_nil }
  near p hp q hq := by
    have hle := (List.pairwise_append.mp h.sorted).2.2 (x, d) (by rw [h.popped]; simp) p hp
    have hnear := h.near q hq
    simp only at hle
    omega

lemma settled_initial (hdepth : 0 < maxDepth) (hrecords : 0 ≤ maxRecords) :
    Settled g seed direction maxDepth maxRecords (.initial seed) where
  once := List.nodup_singleton seed
  sorted := List.pairwise_singleton _ _
  dist p hp := by
    rw [List.mem_singleton.mp hp]
    exact isDist_seed
  shallow p hp := by
    rw [List.mem_singleton.mp hp]
    exact hdepth
  start := Finset.mem_singleton_self seed
  known p hp := by
    rw [List.mem_singleton.mp hp]
    exact Finset.mem_singleton_self seed
  far z hz := by
    rw [Finset.mem_singleton.mp hz]
    exact .inl (List.mem_singleton.mpr rfl)
  bounded := hrecords
  full hflag := absurd hflag (by simp [TraceState.initial])
  drawn e he := absurd he List.not_mem_nil
  edges _ := rfl
  closed _ p hp := absurd hp List.not_mem_nil
  seen _ row hrow := absurd hrow List.not_mem_nil
  near p hp q hq := by
    rw [List.mem_singleton.mp hp, List.mem_singleton.mp hq]
    exact Nat.zero_le _

/-- **The loop** ends settled, with an empty queue or for want of room. -/
lemma Settled.loop (h : Settled g seed direction maxDepth maxRecords s) :
    Settled g seed direction maxDepth maxRecords (traceLoop g direction maxDepth maxRecords s) ∧
      ((traceLoop g direction maxDepth maxRecords s).truncatedByRecords = true ∨
        (traceLoop g direction maxDepth maxRecords s).queue = []) := by
  fun_induction traceLoop g direction maxDepth maxRecords s with
  | case1 s hqueue => exact ⟨h, .inr hqueue⟩
  | case2 s x d queue hqueue t hdeep ih => exact absurd (h.pop hqueue).depth_lt (by omega)
  | case3 s x d queue hqueue t hdeep hfull =>
    exact ⟨((h.pop hqueue).stop hfull _).settle, .inl rfl⟩
  | case4 s x d queue hqueue t hdeep hroom ih =>
    have hout := (h.pop hqueue).scan (r := g.outboundRows direction x d)
      fun row hrow => List.mem_append_left _ hrow
    have hin := hout.scan (r := g.inboundRows direction x d)
      fun row hrow => List.mem_append_right _ hrow
    exact ih hin.settle

/-! ## The result -/

/-- A search that ended has what is expected of it. -/
lemma Settled.exact (h : Settled g seed direction maxDepth maxRecords s)
    (hend : s.truncatedByRecords = true ∨ s.queue = []) :
    TraceExact g seed direction maxRecords s := by
  have hall : s.truncatedByDepth = false → s.truncatedByRecords = false → s.queue = [] ∧
      ∀ x d, (x, d) ∈ s.popped ↔ IsDist (g.Follows direction) seed d x := by
    intro hdepth hflag
    have hqueue : s.queue = [] := hend.resolve_left (by rw [hflag]; exact Bool.false_ne_true)
    have hvisited : ∀ x ∈ s.visited, x ∈ s.popped.map Prod.fst := fun x hx => by
      rcases h.far x hx with hmem | ⟨htrue, -⟩
      · rwa [hqueue, List.append_nil] at hmem
      · exact absurd (hdepth.symm.trans htrue) Bool.false_ne_true
    refine ⟨hqueue, fun x d => ⟨fun hmem => h.dist (x, d) (List.mem_append_left _ hmem),
      fun hdist => ?_⟩⟩
    have hx : x ∈ s.visited := hdist.of_closed h.start fun y z hy hyz => by
      obtain ⟨p, hp, rfl⟩ := List.mem_map.mp (hvisited y hy)
      exact h.closed hflag p hp z hyz
    obtain ⟨p, hp, rfl⟩ := List.mem_map.mp (hvisited x hx)
    rw [hdist.eq (h.dist p (List.mem_append_left _ hp))]
    exact hp
  refine ⟨h.bounded, h.once, fun e he => ?_, fun hdepth hflag => ?_, fun x d hdist e he hnot => ?_⟩
  · obtain ⟨p, hp, he⟩ := h.drawn e he
    exact ⟨p.1, p.2, h.dist p (List.mem_append_left _ hp), he⟩
  · obtain ⟨hqueue, hnodes⟩ := hall hdepth hflag
    have honce := h.once
    rw [hqueue, List.append_nil] at honce
    refine ⟨s.popped, honce, hnodes, by simpa using h.edges hflag, ?_⟩
    have hvisited : s.visited = (s.popped.map Prod.fst).toFinset := by
      ext x
      rw [List.mem_toFinset]
      constructor
      · intro hx
        rcases h.far x hx with hmem | ⟨htrue, -⟩
        · rwa [hqueue, List.append_nil] at hmem
        · exact absurd (hdepth.symm.trans htrue) Bool.false_ne_true
      · intro hx
        obtain ⟨p, hp, rfl⟩ := List.mem_map.mp hx
        exact h.known p (List.mem_append_left _ hp)
    rw [hvisited, List.toFinset_card_of_nodup honce, List.length_map]
  · by_contra hflags
    rw [not_or, Bool.not_eq_true, Bool.not_eq_true] at hflags
    obtain ⟨-, hnodes⟩ := hall hflags.1 hflags.2
    refine hnot ?_
    rw [h.edges hflags.2, List.map_nil, List.append_nil]
    exact List.mem_flatMap.mpr ⟨(x, d), (hnodes x d).mpr hdist, he⟩

/-- A search that may take no step has seen the seed only. -/
lemma traceRun_of_nonpos (hdepth : maxDepth ≤ 0) :
    traceRun g seed direction maxDepth maxRecords =
      ⟨{seed}, [], [], false, false, [(seed, 0)]⟩ := by
  have hqueue : (TraceState.initial seed).queue = [(seed, 0)] := rfl
  rw [traceRun, traceLoop_cons hqueue]
  simp only [Nat.cast_zero, if_pos hdepth]
  rw [traceLoop_nil rfl]
  rfl

end Trace

open Trace

/-- **Traces are complete unless flagged**, exactly if the number of edges is not negative and the
depth is positive, or there is nothing to trace. -/
theorem traceExact_iff (g : TraceGraph) (seed direction : String) (maxDepth maxRecords : ℤ) :
    TraceExact g seed direction maxRecords (traceRun g seed direction maxDepth maxRecords) ↔
      0 ≤ maxRecords ∧ (1 ≤ maxDepth ∨ g.nodeRows direction seed 0 = []) := by
  rcases lt_or_ge 0 maxDepth with hdepth | hdepth
  · constructor
    · exact fun h => ⟨(Int.natCast_nonneg _).trans h.bounded, .inl hdepth⟩
    · rintro ⟨hrecords, -⟩
      obtain ⟨hsettled, hend⟩ := (settled_initial hdepth hrecords).loop
      exact hsettled.exact hend
  · rw [traceRun_of_nonpos hdepth]
    constructor
    · intro h
      refine ⟨h.bounded, .inr ?_⟩
      obtain ⟨nodes, -, hnodes, hedges, -⟩ := h.complete rfl rfl
      have hseed := List.flatMap_eq_nil_iff.mp hedges.symm (seed, 0) ((hnodes seed 0).mpr isDist_seed)
      exact List.map_eq_nil_iff.mp hseed
    · rintro ⟨hrecords, hnone⟩
      have hrows := hnone.resolve_left (by omega)
      have honly : ∀ x d, IsDist (g.Follows direction) seed d x → x = seed := fun x d hdist =>
        hdist.of_closed (P := (· = seed)) rfl fun y z hy hyz => by
          rw [hy, TraceGraph.follows_iff 0, hrows] at hyz
          exact absurd hyz List.not_mem_nil
      refine ⟨hrecords, List.nodup_singleton seed, fun e he => absurd he List.not_mem_nil,
        fun _ _ => ⟨[(seed, 0)], List.nodup_singleton seed, fun x d => ?_, ?_, rfl⟩,
        fun x d hdist e he => ?_⟩
      · rw [List.mem_singleton]
        constructor
        · rintro ⟨⟩
          exact isDist_seed
        · intro hdist
          obtain rfl := honly x d hdist
          rw [hdist.eq isDist_seed]
      · rw [List.flatMap_singleton, TraceGraph.edgesAt, hrows]
        rfl
      · obtain rfl := honly x d hdist
        rw [TraceGraph.edgesAt, TraceGraph.nodeRows_eq_nil hrows] at he
        exact absurd he List.not_mem_nil

/-- One file that imports another one. -/
def oneImport : TraceGraph where
  outbound current := if current = "a" then [(.imports, "b")] else []
  inbound current := if current = "b" then [(.imports, "a")] else []

/-- With a depth of zero the import is left out, and nothing is reported. -/
theorem oneImport_not_exact :
    ¬ TraceExact oneImport "a" "outbound" 10 (traceRun oneImport "a" "outbound" 0 10) := by
  rw [traceRun_of_nonpos (Int.le_refl 0)]
  intro h
  have hflags := h.flagged "a" 0 isDist_seed ⟨1, .imports, "a", "b"⟩ (by decide)
    List.not_mem_nil
  exact absurd hflags (by decide)

end WorkspaceAtlas
