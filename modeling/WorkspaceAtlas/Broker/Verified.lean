/-
# What a packet says of its excerpts and its budget

The sums, the bounds, the counts and the order of a packet hold in every run.  Whether a verified
excerpt has the text that was indexed is decided between the two times that its file is opened:
the digest is that of the first bytes, the text is that of the second.
-/
import WorkspaceAtlas.Broker.Packet

namespace WorkspaceAtlas

open Relational Text

namespace Broker

/-- A path of the generation, with what the index has as the digest of its file. -/
def IndexedAs (c : Catalogue) (gid path : String) (hash : Option String) : Prop :=
  ∃ cf ∈ c.currentFileOf gid, cf.canonicalPath = path ∧ contentHashColumn c cf = hash

/-- The text of an excerpt that is called verified is the one that was indexed. -/
def IsGenuine (H : Hasher) (e : ExactExcerpt) : Prop :=
  e.status = .verified → ∃ text, e.text = some text ∧
    contentHashOfBytes H (utf8 text) = e.indexedContentHash

/-- A packet is verified and within its budget. -/
structure IsVerifiedWithinBudget (H : Hasher) (c : Catalogue) (o : Orders) (gid : String)
    (req : TaskRequest) (p : ContextPacket) : Prop where
  genuine : ∀ e ∈ p.exactExcerpts, IsGenuine H e
  indexed : ∀ e ∈ p.exactExcerpts, IndexedAs c gid e.canonicalPath (some e.indexedContentHash)
  sum_textBytes : (p.exactExcerpts.map ExactExcerpt.textBytes).sum = p.budget.usedSourceBytes
  usedSourceBytes_le : p.budget.usedSourceBytes ≤ req.maxSourceBytes
  usedTokens_le : (p.budget.usedSourceBytes / 4 : ℕ) ≤ req.maxTokenEstimate
  considered_eq : p.omissions.totalCandidatesConsidered =
    p.omissions.selectedCount + p.omissions.omittedByBudget
  selectedCount_eq : p.omissions.selectedCount = p.primaryTargets.length
  omitted : ∃ omitted : List ScoredCandidate,
    List.Perm (p.primaryTargets ++ omitted) (candidates c o gid req) ∧
      omitted.length = p.omissions.omittedByBudget
  ranked : p.primaryTargets.Pairwise fun x y => rankKey x ≤ rankKey y
  selected_le : p.primaryTargets.length ≤ usableRecords req.maxRecords
  complete : p.status = .complete → p.omissions.omittedByBudget = 0 ∧
    (includesExactSource req.mode = true → ∀ t ∈ p.primaryTargets, ∀ hash,
      IndexedAs c gid t.canonicalPath hash →
        ∃ e ∈ p.exactExcerpts, e.canonicalPath = t.canonicalPath ∧ e.status = .verified)

variable {H : Hasher} {c : Catalogue} {o : Orders} {disk : DiskHistory} {gid : String}
  {req : TaskRequest} {n : ℕ} {s s' : Selection} {x : ScoredCandidate}

/-! ## One round -/

lemma indexedHash_eq_none_iff {path : String} :
    indexedHash c o gid path = none ↔ ∀ hash, ¬ IndexedAs c gid path hash := by
  have hnil : indexedHash c o gid path = none ↔
      (c.currentFileOf gid).filter (fun cf => cf.canonicalPath = path) = [] := by
    rw [indexedHash, Option.map_eq_none_iff, List.head?_eq_none_iff,
      ← List.length_eq_zero_iff, (o.files.perm _).length_eq, List.length_eq_zero_iff]
  rw [hnil, List.filter_eq_nil_iff]
  constructor
  · rintro h hash ⟨cf, hcf, rfl, -⟩
    exact h cf hcf (by simp)
  · intro h cf hcf hpath
    exact h (contentHashColumn c cf) ⟨cf, hcf, by simpa using hpath, rfl⟩

lemma indexedAs_of_indexedHash {path : String} {hash : Option String}
    (h : indexedHash c o gid path = some hash) : IndexedAs c gid path hash := by
  obtain ⟨cf, hhead, hhash⟩ := Option.map_eq_some_iff.mp h
  have hmem := RowOrder.mem_arrange.mp (List.mem_of_head? hhead)
  rw [List.mem_filter, decide_eq_true_eq] at hmem
  exact ⟨cf, hmem.1, hmem.2, hhash⟩

/-- What a round does with a candidate. -/
inductive Round (H : Hasher) (c : Catalogue) (o : Orders) (disk : DiskHistory) (gid : String)
    (req : TaskRequest) (n : ℕ) (s : Selection) (x : ScoredCandidate) : Selection → Prop
  | leave : Round H c o disk gid req n s x (s.leave x)
  | select (room : s.selected.length < usableRecords req.maxRecords)
      (plain : includesExactSource req.mode = true → indexedHash c o gid x.canonicalPath = none) :
      Round H c o disk gid req n s x (s.select x)
  | quote (room : s.selected.length < usableRecords req.maxRecords)
      (source : includesExactSource req.mode = true) (indexed : String)
      (hindexed : indexedHash c o gid x.canonicalPath = some (some indexed)) (e : ExactExcerpt)
      (he : e = excerptOf H x.canonicalPath indexed (disk (2 * n) x.canonicalPath)
        (disk (2 * n + 1) x.canonicalPath))
      (fits : ∀ text, e.text = some text → exceeds req s.usedBytes text = false) :
      Round H c o disk gid req n s x (s.quote x e)

lemma round_of_consider (h : consider H c o disk gid req n s x = .ok s') :
    Round H c o disk gid req n s x s' := by
  rw [consider] at h
  split at h
  next =>
    obtain rfl := Except.ok.inj h
    exact .leave
  next hroom =>
    split at h
    next hsource =>
      split at h
      next hnone =>
        obtain rfl := Except.ok.inj h
        exact .select (not_le.mp hroom) fun _ => hnone
      next => exact absurd h (by simp)
      next indexed hindexed =>
        dsimp only at h
        split at h
        next htext =>
          obtain rfl := Except.ok.inj h
          refine .quote (not_le.mp hroom) hsource indexed hindexed _ rfl fun text ht => ?_
          exact absurd (htext.symm.trans ht) (by simp)
        next text htext =>
          obtain rfl := Except.ok.inj h
          split
          next => exact .leave
          next hfits =>
            refine .quote (not_le.mp hroom) hsource indexed hindexed _ rfl fun text' ht => ?_
            obtain rfl := Option.some.inj (htext.symm.trans ht)
            simpa using hfits
    next hsource =>
      obtain rfl := Except.ok.inj h
      exact .select (not_le.mp hroom) fun hs => absurd hs hsource

lemma excerptOf_canonicalPath {path indexed : String} {hashed read : Option (List UInt8)} :
    (excerptOf H path indexed hashed read).canonicalPath = path := by
  rw [excerptOf.eq_def]
  split
  · rfl
  · split
    · split <;> rfl
    · rfl

lemma excerptOf_indexedContentHash {path indexed : String} {hashed read : Option (List UInt8)} :
    (excerptOf H path indexed hashed read).indexedContentHash = indexed := by
  rw [excerptOf.eq_def]
  split
  · rfl
  · split
    · split <;> rfl
    · rfl

/-- Only an excerpt that is called verified has a text: that of the second time the file was
opened, where the first time it had the indexed digest. -/
lemma excerptOf_verified {path indexed : String} {hashed read : Option (List UInt8)}
    (h : (excerptOf H path indexed hashed read).status = .verified) :
    ∃ bytes text, hashed = some bytes ∧ contentHashOfBytes H bytes = indexed ∧
      read = some (utf8 text) ∧ (excerptOf H path indexed hashed read).text = some text := by
  revert h
  rw [excerptOf.eq_def]
  split
  next => exact fun h => absurd h (by simp)
  next bytes =>
    split
    next hhash =>
      split
      next => exact fun h => absurd h (by simp)
      next text hread =>
        intro
        obtain ⟨later, rfl, hlater⟩ := Option.bind_eq_some_iff.mp hread
        exact ⟨bytes, text, rfl, hhash, congrArg some (fromUTF8?_eq_some_iff.mp hlater), rfl⟩
    next => exact fun h => absurd h (by simp)

/-! ## The loop -/

/-- What holds of the variables after the candidates of a list. -/
structure Selection.Accounts (c : Catalogue) (gid : String) (req : TaskRequest)
    (front : List ScoredCandidate) (s : Selection) : Prop where
  perm : List.Perm (s.selected ++ s.unselected) front
  sublist : s.selected.Sublist front
  omittedByBudget_eq : s.omittedByBudget = s.unselected.length
  indexed : ∀ e ∈ s.exactExcerpts, IndexedAs c gid e.canonicalPath (some e.indexedContentHash)
  sum_textBytes : (s.exactExcerpts.map ExactExcerpt.textBytes).sum = s.usedBytes
  usedBytes_le : s.usedBytes ≤ req.maxSourceBytes
  usedTokens_le : (s.usedBytes / 4 : ℕ) ≤ req.maxTokenEstimate
  selected_le : s.selected.length ≤ usableRecords req.maxRecords
  quoted : includesExactSource req.mode = true → ∀ t ∈ s.selected, ∀ hash,
    IndexedAs c gid t.canonicalPath hash →
      ∃ e ∈ s.exactExcerpts, e.canonicalPath = t.canonicalPath

variable {front : List ScoredCandidate}

lemma accounts_start (hrecords : 0 < req.maxRecords) (hbytes : 0 < req.maxSourceBytes)
    (htokens : 0 < req.maxTokenEstimate) : Selection.start.Accounts c gid req [] where
  perm := List.Perm.refl _
  sublist := List.Sublist.refl _
  omittedByBudget_eq := rfl
  indexed _ h := absurd h List.not_mem_nil
  sum_textBytes := rfl
  usedBytes_le := hbytes.le
  usedTokens_le := htokens.le
  selected_le := usableRecords_nonneg hrecords
  quoted _ _ h := absurd h List.not_mem_nil

lemma Selection.Accounts.leave (h : s.Accounts c gid req front) :
    (s.leave x).Accounts c gid req (front ++ [x]) where
  perm := by
    rw [Selection.leave, ← List.append_assoc]
    exact h.perm.append_right [x]
  sublist := h.sublist.trans (List.sublist_append_left front [x])
  omittedByBudget_eq := by
    rw [Selection.leave, List.length_append, h.omittedByBudget_eq]
    rfl
  indexed := h.indexed
  sum_textBytes := h.sum_textBytes
  usedBytes_le := h.usedBytes_le
  usedTokens_le := h.usedTokens_le
  selected_le := h.selected_le
  quoted := h.quoted

/-- A candidate is selected, without or with an excerpt. -/
lemma Selection.Accounts.selected_append (s' : Selection) (h : s.Accounts c gid req front)
    (hselected : s'.selected = s.selected ++ [x]) (hunselected : s'.unselected = s.unselected)
    (hroom : s.selected.length < usableRecords req.maxRecords) :
    List.Perm (s'.selected ++ s'.unselected) (front ++ [x]) ∧
      s'.selected.Sublist (front ++ [x]) ∧
      s'.selected.length ≤ usableRecords req.maxRecords := by
  rw [hselected, hunselected]
  refine ⟨?_, h.sublist.append_right [x], ?_⟩
  · have hswap : List.Perm (s.selected ++ ([x] ++ s.unselected))
        (s.selected ++ (s.unselected ++ [x])) := List.perm_append_comm.append_left _
    rw [List.append_assoc]
    refine hswap.trans ?_
    rw [← List.append_assoc]
    exact h.perm.append_right [x]
  · rw [List.length_append, List.length_singleton]
    omega

lemma Selection.Accounts.round (h : s.Accounts c gid req front)
    (hround : Round H c o disk gid req n s x s') : s'.Accounts c gid req (front ++ [x]) := by
  cases hround with
  | leave => exact h.leave
  | select hroom hplain =>
    obtain ⟨hperm, hsublist, hle⟩ :=
      Selection.Accounts.selected_append (s.select x) h rfl rfl hroom
    refine { h with perm := hperm, sublist := hsublist, selected_le := hle, quoted := ?_ }
    intro hsource t ht hash hindexed
    rcases List.mem_append.mp ht with ht | ht
    · exact h.quoted hsource t ht hash hindexed
    · obtain rfl := List.mem_singleton.mp ht
      exact absurd hindexed (indexedHash_eq_none_iff.mp (hplain hsource) hash)
  | quote hroom hsource indexed hindexed e he hfits =>
    obtain ⟨hperm, hsublist, hle⟩ :=
      Selection.Accounts.selected_append (s.quote x e) h rfl rfl hroom
    have hpath : e.canonicalPath = x.canonicalPath := by rw [he, excerptOf_canonicalPath]
    have hbudget : ((s.usedBytes + e.textBytes : ℕ) : ℤ) ≤ req.maxSourceBytes ∧
        ((s.usedBytes + e.textBytes) / 4 : ℕ) ≤ req.maxTokenEstimate := by
      rw [ExactExcerpt.textBytes]
      cases htext : e.text with
      | none => exact ⟨h.usedBytes_le, h.usedTokens_le⟩
      | some text =>
        have hle := hfits text htext
        rw [exceeds, decide_eq_false_iff_not, not_or, not_lt, not_lt] at hle
        exact ⟨by exact_mod_cast hle.1, hle.2⟩
    refine
      { perm := hperm
        sublist := hsublist
        omittedByBudget_eq := h.omittedByBudget_eq
        indexed := ?_
        sum_textBytes := ?_
        usedBytes_le := hbudget.1
        usedTokens_le := hbudget.2
        selected_le := hle
        quoted := ?_ }
    · intro e' he'
      rcases List.mem_append.mp he' with he' | he'
      · exact h.indexed e' he'
      · obtain rfl := List.mem_singleton.mp he'
        rw [hpath, he, excerptOf_indexedContentHash]
        exact indexedAs_of_indexedHash hindexed
    · rw [Selection.quote, List.map_append, List.sum_append, h.sum_textBytes]
      rfl
    · intro _ t ht hash hhash
      rcases List.mem_append.mp ht with ht | ht
      · obtain ⟨e', he', hpath'⟩ := h.quoted hsource t ht hash hhash
        exact ⟨e', List.mem_append_left _ he', hpath'⟩
      · obtain rfl := List.mem_singleton.mp ht
        exact ⟨e, List.mem_append_right _ List.mem_cons_self, hpath⟩

lemma considerAll_append {l m : List ScoredCandidate} :
    considerAll H c o disk gid req n s (l ++ m) =
      match considerAll H c o disk gid req n s l with
      | .error e => .error e
      | .ok s' => considerAll H c o disk gid req (n + l.length) s' m := by
  induction l generalizing n s with
  | nil => rfl
  | cons x l ih =>
    rw [List.cons_append, considerAll, considerAll]
    cases consider H c o disk gid req n s x with
    | error e => rfl
    | ok s' =>
      dsimp only
      rw [ih, List.length_cons, Nat.add_right_comm, Nat.add_assoc]

/-- A loop that ends in a result has run its first candidate. -/
lemma considerAll_cons {rest : List ScoredCandidate} {final : Selection}
    (h : considerAll H c o disk gid req n s (x :: rest) = .ok final) :
    ∃ s', consider H c o disk gid req n s x = .ok s' ∧
      considerAll H c o disk gid req (n + 1) s' rest = .ok final := by
  rw [considerAll] at h
  split at h
  next => exact absurd h (by simp)
  next s' hs' => exact ⟨s', hs', h⟩

lemma Selection.Accounts.considerAll {rest : List ScoredCandidate} {final : Selection}
    (h : s.Accounts c gid req front)
    (hrun : considerAll H c o disk gid req n s rest = .ok final) :
    final.Accounts c gid req (front ++ rest) := by
  induction rest generalizing n s front with
  | nil =>
    obtain rfl := Except.ok.inj hrun
    rwa [List.append_nil]
  | cons x rest ih =>
    obtain ⟨s', hs', hrest⟩ := considerAll_cons hrun
    have := ih (h.round (round_of_consider hs')) hrest
    rwa [List.append_assoc] at this

/-- The excerpts that there are stay. -/
lemma excerpts_of_considerAll {rest : List ScoredCandidate} {final : Selection}
    (hrun : considerAll H c o disk gid req n s rest = .ok final) :
    ∀ e ∈ s.exactExcerpts, e ∈ final.exactExcerpts := by
  induction rest generalizing n s with
  | nil =>
    obtain rfl := Except.ok.inj hrun
    exact fun e he => he
  | cons x rest ih =>
    obtain ⟨s', hs', hrest⟩ := considerAll_cons hrun
    refine fun e he => ih hrest e ?_
    cases round_of_consider hs' with
    | leave => exact he
    | select => exact he
    | quote => exact List.mem_append_left _ he

/-! ## The two times that a file is opened -/

/-- The text of a candidate is taken into the packet: at the first moment the file has the
digest of the index, and what it has at the second moment is a text that fits. -/
structure IsTaken (H : Hasher) (c : Catalogue) (o : Orders) (disk : DiskHistory) (gid : String)
    (req : TaskRequest) (n : ℕ) (s : Selection) (x : ScoredCandidate) (bytes : List UInt8)
    (text : String) : Prop where
  room : s.selected.length < usableRecords req.maxRecords
  source : includesExactSource req.mode = true
  indexed : indexedHash c o gid x.canonicalPath = some (some (contentHashOfBytes H bytes))
  hashed : disk (2 * n) x.canonicalPath = some bytes
  read : disk (2 * n + 1) x.canonicalPath = some (utf8 text)
  fits : exceeds req s.usedBytes text = false

/-- No file is edited between the two times that it is opened for a text that is taken. -/
def IsUneditedBetweenOpens (H : Hasher) (c : Catalogue) (o : Orders) (disk : DiskHistory)
    (gid : String) (req : TaskRequest) : Prop :=
  ∀ front x rest, candidates c o gid req = front ++ x :: rest →
    ∀ s, considerAll H c o disk gid req 0 .start front = .ok s →
      ∀ bytes text, IsTaken H c o disk gid req front.length s x bytes text →
        disk (2 * front.length + 1) x.canonicalPath = disk (2 * front.length) x.canonicalPath

/-- The excerpt of a text that is taken. -/
lemma consider_of_isTaken {bytes : List UInt8} {text : String}
    (h : IsTaken H c o disk gid req n s x bytes text) :
    consider H c o disk gid req n s x = .ok (s.quote x ⟨x.canonicalPath,
      contentHashOfBytes H bytes, contentHashOfBytes H bytes, .verified,
      some (contentHashOfBytes H (utf8 text)), some text⟩) := by
  have he : excerptOf H x.canonicalPath (contentHashOfBytes H bytes)
      (disk (2 * n) x.canonicalPath) (disk (2 * n + 1) x.canonicalPath) =
        ⟨x.canonicalPath, contentHashOfBytes H bytes, contentHashOfBytes H bytes, .verified,
          some (contentHashOfBytes H (utf8 text)), some text⟩ := by
    rw [h.hashed, h.read]
    simp only [excerptOf, if_true, Option.bind_some, fromUTF8?_eq_some_iff.mpr rfl]
  simp only [consider, if_neg (not_le.mpr h.room), if_pos h.source, h.indexed, he, h.fits]
  rfl

/-- A verified excerpt of a round has a text that was taken. -/
lemma isTaken_of_verified {indexed : String} {e : ExactExcerpt}
    (hroom : s.selected.length < usableRecords req.maxRecords)
    (hsource : includesExactSource req.mode = true)
    (hindexed : indexedHash c o gid x.canonicalPath = some (some indexed))
    (he : e = excerptOf H x.canonicalPath indexed (disk (2 * n) x.canonicalPath)
      (disk (2 * n + 1) x.canonicalPath))
    (hfits : ∀ text, e.text = some text → exceeds req s.usedBytes text = false)
    (hverified : e.status = .verified) :
    ∃ bytes text, IsTaken H c o disk gid req n s x bytes text ∧ e.text = some text ∧
      e.indexedContentHash = contentHashOfBytes H bytes := by
  rw [he] at hverified
  obtain ⟨bytes, text, hhashed, rfl, hread, htext⟩ := excerptOf_verified hverified
  rw [← he] at htext
  refine ⟨bytes, text, ⟨hroom, hsource, hindexed, hhashed, hread, hfits text htext⟩, htext, ?_⟩
  rw [he, excerptOf_indexedContentHash]

lemma genuine_of_considerAll {rest : List ScoredCandidate} {final : Selection}
    (hunedited : IsUneditedBetweenOpens H c o disk gid req)
    (hsplit : candidates c o gid req = front ++ rest)
    (hfront : considerAll H c o disk gid req 0 .start front = .ok s)
    (hrun : considerAll H c o disk gid req front.length s rest = .ok final)
    (hs : ∀ e ∈ s.exactExcerpts, IsGenuine H e) :
    ∀ e ∈ final.exactExcerpts, IsGenuine H e := by
  induction rest generalizing front s with
  | nil =>
    obtain rfl := Except.ok.inj hrun
    exact hs
  | cons x rest ih =>
    obtain ⟨s', hs', hrest⟩ := considerAll_cons hrun
    have hfront' : considerAll H c o disk gid req 0 .start (front ++ [x]) = .ok s' := by
      rw [considerAll_append, hfront, Nat.zero_add]
      simp only [considerAll, hs']
    refine ih (by rw [hsplit, List.append_assoc]; rfl) hfront'
      (by rw [List.length_append]; exact hrest) ?_
    cases round_of_consider hs' with
    | leave => exact hs
    | select => exact hs
    | quote hroom hsource indexed hindexed e he hfits =>
      intro e' he'
      rcases List.mem_append.mp he' with he' | he'
      · exact hs e' he'
      · obtain rfl := List.mem_singleton.mp he'
        intro hverified
        obtain ⟨bytes, text, htaken, htext, hhash⟩ :=
          isTaken_of_verified hroom hsource hindexed he hfits hverified
        have hsame := hunedited front x rest hsplit s hfront bytes text htaken
        rw [htaken.read, htaken.hashed] at hsame
        exact ⟨text, htext, by rw [Option.some.inj hsame, hhash]⟩

/-- A taken text that is not what was hashed stands in the packet. -/
lemma unedited_of_genuine (hH : H.Injective) {final : Selection}
    (hrun : considerAll H c o disk gid req 0 .start (candidates c o gid req) = .ok final)
    (hgenuine : ∀ e ∈ final.exactExcerpts, IsGenuine H e) :
    IsUneditedBetweenOpens H c o disk gid req := by
  intro front x rest hsplit s hfront bytes text htaken
  rw [hsplit, considerAll_append, hfront, Nat.zero_add] at hrun
  obtain ⟨s', hs', hrest⟩ := considerAll_cons hrun
  rw [consider_of_isTaken htaken] at hs'
  obtain rfl := Except.ok.inj hs'
  have hmem := excerpts_of_considerAll hrest _ (List.mem_append_right _ List.mem_cons_self)
  obtain ⟨text', htext, hhash⟩ := hgenuine _ hmem rfl
  obtain rfl := Option.some.inj htext
  rw [htaken.read, htaken.hashed, contentHashOfBytes_injective hH hhash]

/-! ## The packet -/

/-- Apart from the texts, a packet is as it should be. -/
lemma isVerifiedWithinBudget_iff {p : ContextPacket} {workspaceId : String} {now : Timestamp}
    (hactive : activeGeneration? c workspaceId = some gid) (hrecords : 0 < req.maxRecords)
    (hbytes : 0 < req.maxSourceBytes) (htokens : 0 < req.maxTokenEstimate)
    (h : buildPacket H c o disk workspaceId req now = .ok p) :
    ∃ s, considerAll H c o disk gid req 0 .start (candidates c o gid req) = .ok s ∧
      (IsVerifiedWithinBudget H c o gid req p ↔ ∀ e ∈ s.exactExcerpts, IsGenuine H e) := by
  rw [buildPacket, hactive] at h
  dsimp only at h
  split at h
  next => exact absurd h (by simp)
  next s hs =>
    obtain rfl := Except.ok.inj h
    have hstart : Selection.start.Accounts c gid req [] :=
      accounts_start hrecords hbytes htokens
    have haccounts := hstart.considerAll hs
    rw [List.nil_append] at haccounts
    have hlength : (candidates c o gid req).length = s.selected.length + s.omittedByBudget := by
      rw [← haccounts.perm.length_eq, List.length_append, haccounts.omittedByBudget_eq]
    refine ⟨s, hs, IsVerifiedWithinBudget.genuine, fun hgenuine => ?_⟩
    refine
      { genuine := hgenuine
        indexed := haccounts.indexed
        sum_textBytes := haccounts.sum_textBytes
        usedSourceBytes_le := haccounts.usedBytes_le
        usedTokens_le := haccounts.usedTokens_le
        considered_eq := hlength
        selectedCount_eq := rfl
        omitted := ⟨s.unselected, haccounts.perm, haccounts.omittedByBudget_eq.symm⟩
        ranked := pairwise_orderBy.sublist haccounts.sublist
        selected_le := haccounts.selected_le
        complete := ?_ }
    intro hcomplete
    have hnot : ¬ ((∃ e ∈ s.exactExcerpts, e.status ≠ .verified) ∨ 0 < s.omittedByBudget) := by
      intro hpartly
      exact absurd ((if_pos hpartly).symm.trans hcomplete) (by simp)
    rw [not_or, not_lt] at hnot
    refine ⟨Nat.le_zero.mp hnot.2, fun hsource t ht hash hhash => ?_⟩
    obtain ⟨e, he, hpath⟩ := haccounts.quoted hsource t ht hash hhash
    exact ⟨e, he, hpath, by_contra fun hne => hnot.1 ⟨e, he, hne⟩⟩

/-- A packet is verified and within its budget if and only if no file is edited between the two
times that it is opened for a text that is taken. -/
theorem isVerifiedWithinBudget_iff_isUneditedBetweenOpens (H : Hasher) (hH : H.Injective)
    (c : Catalogue) (o : Orders) (disk : DiskHistory) (workspaceId gid : String)
    (req : TaskRequest) (now : Timestamp) (p : ContextPacket)
    (hactive : activeGeneration? c workspaceId = some gid) (hrecords : 0 < req.maxRecords)
    (hbytes : 0 < req.maxSourceBytes) (htokens : 0 < req.maxTokenEstimate)
    (h : buildPacket H c o disk workspaceId req now = .ok p) :
    IsVerifiedWithinBudget H c o gid req p ↔ IsUneditedBetweenOpens H c o disk gid req := by
  obtain ⟨s, hs, hiff⟩ := isVerifiedWithinBudget_iff hactive hrecords hbytes htokens h
  rw [hiff]
  constructor
  · exact unedited_of_genuine hH hs
  · intro hunedited
    exact genuine_of_considerAll hunedited (List.nil_append _).symm rfl hs
      fun e he => absurd he List.not_mem_nil

/-! ## A file that is edited -/

/-- A generation with one file, whose text is `a`. -/
def oneFile : Catalogue :=
  { Catalogue.empty with
    workspace := Table.empty.insertOrIgnore ⟨"ws", some "g"⟩
    indexGeneration := Table.empty.insertOrIgnore
      ⟨"g", "ws", none, 1, .committed, .baseline, none, "", "1", 0, some 0, none, none, .zero⟩
    fileRevision := Table.empty.insertOrIgnore
      ⟨"r", "f", contentHashOfBytes Hasher.plain [97], 1, .source, none, false, false, 0⟩
    generationFile := Table.empty.insertOrIgnore
      ⟨"g", "f", some "r", "a.txt", .present, none, none, none, none⟩ }

/-- The request for the file. -/
def oneFileRequest : TaskRequest := ⟨"", .change, ["a.txt"], [], 10, 100, 100⟩

/-- The file is written over at the moment 1. -/
def rewritten (later : List UInt8) : DiskHistory := fun n path =>
  if path = "a.txt" then some (if n = 0 then [97] else later) else none

/-- The candidate of the request. -/
def oneFileCandidate : ScoredCandidate := ⟨"a.txt", none, none, none, 100, 0, false⟩

lemma considerAll_oneFile (disk : DiskHistory) :
    considerAll Hasher.plain oneFile .given disk "g" oneFileRequest 0 .start
      (candidates oneFile .given "g" oneFileRequest) =
    considerAll Hasher.plain oneFile .given disk "g" oneFileRequest 0 .start
      [oneFileCandidate] := by
  have : candidates oneFile .given "g" oneFileRequest = [oneFileCandidate] := by decide
  rw [this]

theorem oneFile_verified : ∃ p, buildPacket Hasher.plain oneFile .given (rewritten [97]) "ws"
    oneFileRequest 0 = .ok p ∧
      IsVerifiedWithinBudget Hasher.plain oneFile .given "g" oneFileRequest p := by
  obtain ⟨s, hs⟩ : ∃ s, considerAll Hasher.plain oneFile .given (rewritten [97]) "g"
      oneFileRequest 0 .start (candidates oneFile .given "g" oneFileRequest) = .ok s := by
    rw [considerAll_oneFile]
    exact ⟨_, rfl⟩
  have hactive : activeGeneration? oneFile "ws" = some "g" := by decide
  have hok := buildPacket_eq 0 hactive hs
  refine ⟨_, hok, (isVerifiedWithinBudget_iff_isUneditedBetweenOpens Hasher.plain
    Hasher.plain_injective oneFile .given (rewritten [97]) "ws" "g" oneFileRequest 0 _ hactive
    (by decide) (by decide) (by decide) hok).mpr ?_⟩
  intro front x rest _ s _ bytes text _
  simp [rewritten]

/-- The excerpt of a file that is written over after its digest was compared has the new text and
is called verified. -/
theorem oneFile_edited : ∃ p, buildPacket Hasher.plain oneFile .given (rewritten [98]) "ws"
    oneFileRequest 0 = .ok p ∧
      ¬ IsVerifiedWithinBudget Hasher.plain oneFile .given "g" oneFileRequest p := by
  have hs : considerAll Hasher.plain oneFile .given (rewritten [98]) "g" oneFileRequest 0 .start
      (candidates oneFile .given "g" oneFileRequest) = .ok ⟨[oneFileCandidate],
        [⟨"a.txt", "61", "61", .verified, some "62", some "b"⟩], 1, 0, []⟩ := by
    rw [considerAll_oneFile]
    decide
  have hactive : activeGeneration? oneFile "ws" = some "g" := by decide
  have hok := buildPacket_eq 0 hactive hs
  refine ⟨_, hok, fun hclaim => ?_⟩
  obtain ⟨text, htext, hhash⟩ := hclaim.genuine _ List.mem_cons_self rfl
  obtain rfl := Option.some.inj htext
  exact absurd hhash (by decide)

end Broker

end WorkspaceAtlas
