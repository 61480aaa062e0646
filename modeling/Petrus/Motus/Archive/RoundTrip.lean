import Petrus.Motus.Archive.Confinement

/-!
# The archive round trip

A workspace is archived with every directory before what is in it, so extraction finds each
member's directory made and rebuilds the tree. Three things the archiver does not check stand
against it: the gate refuses a link that is absolute or steps up, the filter refuses one it
cannot resolve in what is extracted so far, and rewrites one that is not in its normal form.
-/

namespace Petrus.Motus

open Lib Files List Act

variable {c : String} {q : Location} {n : Node} {path : Location}

/-! ## Walking directories that exist -/

section walking

variable {fs : Files Bytes} {base : Location} {follow : Bool} {limit : Nat}

/-- The path is one of directories. -/
def Paved (fs : Files Bytes) (base path : Location) : Prop :=
  ∀ q, q <+: path → q ≠ [] → fs.node (base ++ q) = some .dir

lemma Paved.cons (h : Paved fs base (c :: path)) :
    fs.node (base ++ [c]) = some .dir ∧ Paved fs (base ++ [c]) path := by
  refine ⟨h [c] ⟨path, rfl⟩ (cons_ne_nil _ _), ?_⟩
  intro q hq _
  rw [append_assoc]
  exact h (c :: q) ((prefix_cons_inj c).mpr hq) (cons_ne_nil _ _)

lemma resolve_existing (hup : ".." ∉ path ++ [c]) (h : Paved fs base path)
    (hend : ∀ target, fs.node (base ++ (path ++ [c])) ≠ some (.link target)) :
    fs.resolve follow limit base (path ++ [c]) = some (base ++ (path ++ [c])) := by
  have hwalk : ∀ jump, fs.walk follow jump base (path ++ [c]) = some (base ++ (path ++ [c])) := by
    intro jump
    induction path generalizing base with
    | nil =>
      rw [nil_append, mem_singleton] at hup
      rw [nil_append, walk, if_neg (Ne.symm hup)]
      cases hnode : fs.node (base ++ [c]) with
      | none => rfl
      | some n =>
        cases n with
        | dir => rfl
        | file i => rfl
        | link target => exact absurd hnode (hend target)
    | cons d path ih =>
      rw [cons_append, mem_cons, not_or] at hup
      rw [cons_append, walk, if_neg (Ne.symm hup.1), h.cons.1]
      have hrest := ih hup.2 h.cons.2 (by rw [append_assoc]; exact hend)
      rw [append_assoc] at hrest
      exact hrest
  cases limit with
  | zero => exact hwalk _
  | succ limit => exact hwalk _

lemma resolve_single (hc : c ≠ "..")
    (hnode : ∀ target, fs.node (base ++ [c]) ≠ some (.link target)) :
    fs.resolve follow limit base [c] = some (base ++ [c]) :=
  resolve_existing (by simpa using Ne.symm hc) (fun _ hq hne => absurd (prefix_nil.mp hq) hne) hnode

lemma makedirs_existing (hup : ".." ∉ path) (h : Paved fs base path) :
    makedirs limit base path fs = (.ok (base ++ path), fs) := by
  induction path generalizing base with
  | nil => rw [append_nil]; rfl
  | cons c rest ih =>
    rw [mem_cons, not_or] at hup
    obtain ⟨hdir, hpaved⟩ := h.cons
    have henter : enter limit base c fs = (.ok (base ++ [c]), fs) := by
      unfold enter
      rw [if_neg (Ne.symm hup.1), if_neg (by simp [hdir]),
        resolve_single (Ne.symm hup.1) (by simp [hdir])]
      dsimp only
      rw [if_pos hdir]
    have hrest := ih hup.2 hpaved
    rw [append_assoc] at hrest
    exact (bind_ok_apply henter).trans hrest

lemma realpath_existing {depth : Nat} (hnames : ∀ d ∈ path ++ [c], IsName d)
    (hbase : fs.node base = some .dir) (h : Paved fs base path)
    (hend : ∀ target, fs.node (base ++ (path ++ [c])) ≠ some (.link target)) :
    fs.realpath depth base (path ++ [c]) = some (base ++ (path ++ [c])) := by
  have hstep : ∀ {base d jump rest}, fs.node base = some .dir → IsName d →
      fs.readlink (base ++ [d]) = none →
      fs.realwalk jump base (d :: rest) = fs.realwalk jump (base ++ [d]) rest := by
    rintro base d jump rest hbase ⟨hempty, hdot, hup, -⟩ hlink
    rw [realwalk, if_neg (by simp [isFile, hbase]), if_neg (by simp [hempty, hdot]), if_neg hup,
      hlink]
  have hwalk : ∀ jump, fs.realwalk jump base (path ++ [c]) = some (base ++ (path ++ [c])) := by
    intro jump
    induction path generalizing base with
    | nil =>
      have hlink : fs.readlink (base ++ [c]) = none := by
        unfold readlink
        split
        · rename_i target htarget
          exact absurd htarget (hend target)
        · rfl
      exact hstep hbase (hnames c (by simp)) hlink
    | cons d path ih =>
      rw [cons_append, forall_mem_cons] at hnames
      obtain ⟨hdir, hpaved⟩ := h.cons
      have hrest := ih hnames.2 hdir hpaved (by rw [append_assoc]; exact hend)
      rw [append_assoc] at hrest
      exact (hstep hbase hnames.1 (by simp [readlink, hdir])).trans hrest
  cases depth with
  | zero => exact hwalk _
  | succ depth => exact hwalk _

end walking

/-! ## The order of the paths -/

namespace Workspace

variable {w : Workspace} {done rest : List (Location × Entry)} {e : Location × Entry}

lemma mem_paths : e ∈ w.paths ↔ e ∈ w.entries := (mergeSort_perm _ _).mem_iff

lemma paths_nodup : (w.paths.map Prod.fst).Nodup :=
  ((mergeSort_perm w.entries _).map Prod.fst).nodup_iff.mpr w.nodup

lemma paths_sorted : w.paths.Pairwise fun a b => asPosix a.1 ≤ asPosix b.1 := by
  refine (pairwise_mergeSort ?_ ?_ w.entries).imp fun h => of_decide_eq_true h
  · intro a b c hab hbc
    exact decide_eq_true ((of_decide_eq_true hab).trans (of_decide_eq_true hbc))
  · intro a b
    rcases le_total (asPosix a.1) (asPosix b.1) with h | h
    · simp [h]
    · simp [h]

lemma ancestor (he : e ∈ w.entries) (hq : q <+: e.1) (hne : q ≠ []) (hproper : q ≠ e.1) :
    (q, Entry.dir) ∈ w.entries := by
  obtain ⟨p, x⟩ := e
  induction p using List.reverseRecOn generalizing x with
  | nil => exact absurd (prefix_nil.mp hq) hne
  | append_singleton p c ih =>
    rcases prefix_concat_iff.mp hq with heq | hq
    · exact absurd heq hproper
    · have hpne : p ≠ [] := by
        rintro rfl
        exact hne (prefix_nil.mp hq)
      have hparent := w.closed _ he
      dsimp only at hparent
      rw [dropLast_concat] at hparent
      by_cases heq : q = p
      · exact heq ▸ hparent hpne
      · exact ih .dir (hparent hpne) hq heq

lemma ancestor_archived (hpaths : w.paths = done ++ rest) (he : e ∈ w.entries)
    (hle : ∀ d ∈ rest, asPosix e.1 ≤ asPosix d.1) (hq : q <+: e.1) (hne : q ≠ [])
    (hproper : q ≠ e.1) : (q, Entry.dir) ∈ done := by
  have hdir := ancestor he hq hne hproper
  have hmem : (q, Entry.dir) ∈ done ++ rest := hpaths ▸ mem_paths.mpr hdir
  rcases mem_append.mp hmem with hdone | hrest
  · exact hdone
  · have hback : (PurePath.relative e.1).posix ≤ (PurePath.relative q).posix := hle (q, .dir) hrest
    have heq := le_antisymm (PurePath.posix_le hne hq) hback
    exact absurd (PurePath.posix_inj (w.named _ hdir).2 (w.named _ he).2 hne
      (w.named _ he).1 heq) hproper

end Workspace

/-! ## The gate -/

lemma tame_asPosix (hne : path ≠ []) (hnames : ∀ c ∈ path, IsName c) :
    Tame (asPosix path) := by
  unfold Tame asPosix
  rw [PurePath.parse_posix hne hnames]
  exact ⟨rfl, fun hmem => (hnames _ hmem).2.2.1 rfl⟩

def Named (inodes : List (Nat × String)) : Prop :=
  ∀ inode first, Dict.lookup inode inodes = some first →
    ∃ path : Location, path ≠ [] ∧ (∀ c ∈ path, IsName c) ∧ first = asPosix path

variable {w : Workspace} {e : Location × Entry} {inodes : List (Nat × String)}

lemma gettarinfo_name (path : Location) (x : Entry) :
    (w.gettarinfo inodes path x).1.name = asPosix path := by
  unfold Workspace.gettarinfo
  cases x with
  | file inode =>
    dsimp only
    cases Dict.lookup inode inodes with
    | none => rfl
    | some first => rfl
  | dir => rfl
  | link target => rfl
  | special => rfl

lemma gettarinfo_new {inode : Nat} (h : Dict.lookup inode inodes = none) :
    w.gettarinfo inodes path (.file inode) =
      (⟨asPosix path, .file (w.body inode)⟩, (inode, asPosix path) :: inodes) := by
  simp only [Workspace.gettarinfo, h]

lemma gettarinfo_again {inode : Nat} {first : String} (h : Dict.lookup inode inodes = some first) :
    w.gettarinfo inodes path (.file inode) = (⟨asPosix path, .hardlink first⟩, inodes) := by
  simp only [Workspace.gettarinfo, h]

lemma gettarinfo_named (hne : e.1 ≠ []) (hnames : ∀ c ∈ e.1, IsName c) (h : Named inodes) :
    Named (w.gettarinfo inodes e.1 e.2).2 := by
  obtain ⟨path, x⟩ := e
  unfold Workspace.gettarinfo
  cases x with
  | file inode =>
    dsimp only
    cases hseen : Dict.lookup inode inodes with
    | some first => exact h
    | none =>
      intro j first hj
      unfold Dict.lookup at hj
      split_ifs at hj
      · cases hj
        exact ⟨path, hne, hnames, rfl⟩
      · exact h j first hj
  | dir | link | special => exact h

lemma checkKind_gettarinfo {extracted : Nat} (hnames : ∀ c ∈ e.1, IsName c)
    (h : Named inodes) (hspecial : e.2 ≠ .special)
    (htame : ∀ target, e.2 = .link target → Tame target)
    (hsize : extracted + w.stSize e.2 ≤ maxExtractedBytes) :
    ∃ extracted' ≤ extracted + w.stSize e.2,
      checkKind true extracted (w.gettarinfo inodes e.1 e.2).1 (PurePath.relative e.1) =
        .ok extracted' := by
  obtain ⟨path, x⟩ := e
  unfold Workspace.gettarinfo checkKind
  cases x with
  | dir => exact ⟨extracted, Nat.le_add_right _ _, rfl⟩
  | special => exact absurd rfl hspecial
  | link target =>
    obtain ⟨hrelative, hup⟩ := htame target rfl
    refine ⟨extracted, Nat.le_add_right _ _, ?_⟩
    have hresolved : ".." ∉
        ((PurePath.relative path).parent.join (PurePath.parse target)).parts := by
      unfold PurePath.join
      rw [if_neg (by simp [hrelative])]
      intro hmem
      rcases mem_append.mp hmem with hdir | hmem
      · exact (hnames _ (dropLast_subset _ hdir)).2.2.1 rfl
      · exact hup hmem
    dsimp only
    unfold checkLink
    rw [require_bind rfl, require_true ⟨hrelative, hresolved⟩]
    rfl
  | file inode =>
    dsimp only
    cases hseen : Dict.lookup inode inodes with
    | none =>
      refine ⟨extracted + (w.body inode).length, le_rfl, ?_⟩
      exact require_bind_eq_ok.mpr ⟨hsize, rfl⟩
    | some first =>
      obtain ⟨q, hqne, hqnames, rfl⟩ := h inode first hseen
      obtain ⟨hrelative, hup⟩ := tame_asPosix hqne hqnames
      refine ⟨extracted, Nat.le_add_right _ _, ?_⟩
      dsimp only
      unfold checkLink
      rw [require_bind rfl, require_true ⟨hrelative, hup⟩]
      rfl

lemma members_accepted {es : List (Location × Entry)} {gate : Gate}
    (hnames : ∀ e ∈ es, e.1 ≠ [] ∧ ∀ c ∈ e.1, IsName c) (hnodup : (es.map Prod.fst).Nodup)
    (hspecial : ∀ e ∈ es, e.2 ≠ .special)
    (htame : ∀ e ∈ es, ∀ target, e.2 = .link target → Tame target)
    (hsize : gate.extracted + (es.map fun e => w.stSize e.2).sum ≤ maxExtractedBytes)
    (hseen : ∀ e ∈ es, asPosix e.1 ∉ gate.seen) (h : Named inodes) :
    ∃ gate', (w.members inodes es).foldlM (checkMember true []) gate = .ok gate' := by
  induction es generalizing inodes gate with
  | nil => exact ⟨gate, rfl⟩
  | cons e es ih =>
    rw [forall_mem_cons] at hnames hspecial htame hseen
    rw [map_cons, nodup_cons] at hnodup
    rw [map_cons, sum_cons] at hsize
    have hfits : gate.extracted + w.stSize e.2 ≤ maxExtractedBytes := by omega
    obtain ⟨extracted, hextracted, hkind⟩ :=
      checkKind_gettarinfo hnames.1.2 h hspecial.1 htame.1 hfits
    have hparse : PurePath.parse (w.gettarinfo inodes e.1 e.2).1.name = PurePath.relative e.1 := by
      rw [gettarinfo_name]
      exact PurePath.parse_posix hnames.1.1 hnames.1.2
    have hnew : (PurePath.relative e.1).posix ∉ gate.seen := hseen.1
    have hstep : checkMember true [] gate (w.gettarinfo inodes e.1 e.2).1 =
        .ok ⟨asPosix e.1 :: gate.seen, extracted⟩ := by
      unfold checkMember
      rw [hparse]
      dsimp only
      rw [require_true ⟨rfl, fun hmem => (hnames.1.2 _ hmem).2.2.1 rfl⟩, ok_bind,
        require_bind hnew, require_bind (by simp), hkind, ok_bind]
      rfl
    rw [Workspace.members, foldlM_cons_ok hstep]
    refine ih hnames.2 hnodup.2 hspecial.2 htame.2 ?_ ?_
      (gettarinfo_named hnames.1.1 hnames.1.2 h)
    · dsimp only
      omega
    · intro d hd hmem
      rcases mem_cons.mp hmem with heq | hmem
      · have hsame := PurePath.posix_inj (hnames.2 d hd).2 hnames.1.2 (hnames.2 d hd).1
          hnames.1.1 heq
        exact hnodup.1 (hsame ▸ mem_map_of_mem hd)
      · exact hseen.2 d hd hmem

lemma mem_members {es : List (Location × Entry)} {target : String}
    (h : (path, Entry.link target) ∈ es) :
    ⟨asPosix path, .symlink target⟩ ∈ w.members inodes es := by
  induction es generalizing inodes with
  | nil => cases h
  | cons e es ih =>
    rw [Workspace.members]
    rcases mem_cons.mp h with rfl | h
    · exact mem_cons_self
    · exact mem_cons_of_mem _ (ih h)

/-! ## Extraction -/

def Entry.node? : Entry → Option Node
  | .dir => some .dir
  | .file inode => some (.file inode)
  | .link target => some (.link (PurePath.normpath target))
  | .special => none

/-- The entries as files of their own, the links in their normal form. -/
def Workspace.tree (w : Workspace) (entries : List (Location × Entry)) : Files Bytes where
  node l := if l = [] then some .dir else (Dict.lookup l entries).bind Entry.node?
  body := w.body
  next := 0

/-- In what is archived before a link its target leads somewhere, or to nothing: it does not go on
past a file, and does not loop. -/
def Workspace.Resolves (w : Workspace) (path : Location) (target : String) : Prop :=
  ((w.tree (w.paths.takeWhile fun e => e.1 ≠ path)).realpath w.entries.length []
    (path.dropLast ++ PurePath.names target)).isSome = true

/-- What an entry of the workspace became. -/
inductive Matches (w : Workspace) (fs : Files Bytes) : Entry → Node → Prop where
  | dir : Matches w fs .dir .dir
  | link (target : String) : Matches w fs (.link target) (.link (PurePath.normpath target))
  | file {inode inode' : Nat} (hused : inode' < fs.next) (hbody : fs.body inode' = w.body inode) :
    Matches w fs (.file inode) (.file inode')

/-- The entries archived so far stand below the destination, and nothing else does. -/
structure Built (w : Workspace) (destination : Location) (done : List (Location × Entry))
    (inodes : List (Nat × String)) (fs : Files Bytes) : Prop where
  root : fs.node destination = some .dir
  entries : ∀ e ∈ done, ∃ n, fs.node (destination ++ e.1) = some n ∧ Matches w fs e.2 n
  absent : ∀ path, path ≠ [] → path ∉ done.map Prod.fst → fs.node (destination ++ path) = none
  firsts : ∀ inode first, Dict.lookup inode inodes = some first →
    ∃ path, (path, Entry.file inode) ∈ done ∧ first = asPosix path

section extraction

variable {destination init : Location} {x : Entry} {done rest : List (Location × Entry)}
  {fs fs' : Files Bytes}

lemma Matches.mono (h : Matches w fs x n) (hnext : fs.next ≤ fs'.next)
    (hbody : ∀ i < fs.next, fs'.body i = fs.body i) : Matches w fs' x n := by
  cases h with
  | dir => exact .dir
  | link target => exact .link target
  | file hused hsame => exact .file (lt_of_lt_of_le hused hnext) ((hbody _ hused).trans hsame)

lemma Built.add (h : Built w destination done inodes fs) {inodes' : List (Nat × String)}
    (hne : e.1 ≠ []) (hfresh : e.1 ∉ done.map Prod.fst)
    (hnode : fs'.node = Function.update fs.node (destination ++ e.1) (some n))
    (hnext : fs.next ≤ fs'.next) (hbody : ∀ i < fs.next, fs'.body i = fs.body i)
    (hmatch : Matches w fs' e.2 n)
    (hfirsts : ∀ inode first, Dict.lookup inode inodes' = some first →
      Dict.lookup inode inodes = some first ∨ e.2 = .file inode ∧ first = asPosix e.1) :
    Built w destination (done ++ [e]) inodes' fs' where
  root := by
    have hdiffers : destination ≠ destination ++ e.1 := fun heq =>
      hne (append_right_eq_self.mp heq.symm)
    rw [hnode, Function.update_of_ne hdiffers, h.root]
  entries d hd := by
    rcases mem_append.mp hd with hd | hd
    · obtain ⟨m, hm, hmatches⟩ := h.entries d hd
      have hdiffers : destination ++ d.1 ≠ destination ++ e.1 := fun heq =>
        hfresh (append_cancel_left heq ▸ mem_map_of_mem hd)
      refine ⟨m, ?_, hmatches.mono hnext hbody⟩
      rw [hnode, Function.update_of_ne hdiffers, hm]
    · cases mem_singleton.mp hd
      exact ⟨n, by rw [hnode, Function.update_self], hmatch⟩
  absent path hpath hmem := by
    rw [map_append, mem_append, not_or] at hmem
    have hdiffers : destination ++ path ≠ destination ++ e.1 := by
      intro heq
      exact hmem.2 (mem_singleton.mpr (append_cancel_left heq))
    rw [hnode, Function.update_of_ne hdiffers]
    exact h.absent path hpath hmem.1
  firsts inode first hlookup := by
    rcases hfirsts inode first hlookup with hold | ⟨hfile, hfirst⟩
    · obtain ⟨path, hmem, heq⟩ := h.firsts inode first hold
      exact ⟨path, mem_append_left _ hmem, heq⟩
    · refine ⟨e.1, mem_append_right _ ?_, hfirst⟩
      rw [← hfile]
      exact mem_singleton_self e

lemma Built.paved (h : Built w destination done inodes fs) (hpaths : w.paths = done ++ rest)
    (he : (init ++ [c], x) ∈ w.entries) (hle : ∀ d ∈ rest, asPosix (init ++ [c]) ≤ asPosix d.1) :
    Paved fs destination init := by
  intro q hq hne
  have hproper : q ≠ init ++ [c] := by
    rintro rfl
    have hlength := hq.length_le
    rw [length_append, length_singleton] at hlength
    omega
  have hdir := Workspace.ancestor_archived hpaths he hle (hq.trans (prefix_append _ _)) hne hproper
  obtain ⟨n, hn, hmatches⟩ := h.entries _ hdir
  cases hmatches
  exact hn

/-- The way to the next entry is there, the entry is not. -/
lemma Built.next (h : Built w destination done inodes fs)
    (hpaths : w.paths = done ++ (init ++ [c], x) :: rest) :
    (init ++ [c], x) ∈ w.entries ∧ (∀ d ∈ init ++ [c], IsName d) ∧
      init ++ [c] ∉ done.map Prod.fst ∧ Paved fs destination init ∧
      fs.node (destination ++ (init ++ [c])) = none := by
  have hentry : (init ++ [c], x) ∈ w.entries := Workspace.mem_paths.mp (hpaths ▸ by simp)
  have hsorted := pairwise_cons.mp (pairwise_append.mp (hpaths ▸ w.paths_sorted)).2.1
  have hfresh : init ++ [c] ∉ done.map Prod.fst := by
    have hnodup := w.paths_nodup
    rw [hpaths, map_append, map_cons, nodup_append] at hnodup
    exact fun hmem => hnodup.2.2 _ hmem _ mem_cons_self rfl
  exact ⟨hentry, (w.named _ hentry).2, hfresh,
    h.paved hpaths hentry (forall_mem_cons.mpr ⟨le_rfl, hsorted.1⟩), h.absent _ (by simp) hfresh⟩

/-- A file archived before can be named again. -/
lemma Built.first (h : Built w destination done inodes fs) (hpaths : w.paths = done ++ rest)
    {inode : Nat} {first : String} (hseen : Dict.lookup inode inodes = some first) :
    ∃ init c n, first = asPosix (init ++ [c]) ∧ (∀ d ∈ init ++ [c], IsName d) ∧
      Paved fs destination init ∧ fs.node (destination ++ (init ++ [c])) = some n ∧
      Matches w fs (.file inode) n ∧ ∀ target, n ≠ .link target := by
  obtain ⟨q, hq, rfl⟩ := h.firsts inode first hseen
  have hentry := Workspace.mem_paths.mp (hpaths ▸ mem_append_left rest hq)
  obtain ⟨hne, hnames⟩ := w.named _ hentry
  obtain rfl | ⟨init, c, rfl⟩ := eq_nil_or_concat' q
  · exact absurd rfl hne
  · obtain ⟨n, hn, hmatches⟩ := h.entries _ hq
    refine ⟨init, c, n, rfl, hnames, ?_, hn, hmatches, ?_⟩
    · exact h.paved hpaths hentry ((pairwise_append.mp (hpaths ▸ w.paths_sorted)).2.2 _ hq)
    · rintro target rfl
      cases hmatches

/-! ### The filter -/

lemma Built.mirrors (h : Built w destination done inodes fs) :
    Mirrors destination fs (w.tree done) := by
  have hnode : ∀ l, fs.isFile (destination ++ l) = (w.tree done).isFile l ∧
      fs.readlink (destination ++ l) = (w.tree done).readlink l := by
    intro l
    by_cases hl : l = []
    · subst hl
      simp [isFile, readlink, Workspace.tree, h.root]
    · cases hlookup : Dict.lookup l done with
      | none =>
        have habsent := h.absent l hl (Dict.lookup_eq_none.mp hlookup)
        simp [isFile, readlink, Workspace.tree, hl, hlookup, habsent]
      | some x =>
        obtain ⟨n, hn, hmatches⟩ := h.entries _ (Dict.mem_of_lookup hlookup)
        simp only [isFile, readlink, Workspace.tree, if_neg hl, hlookup, hn]
        cases hmatches <;> exact ⟨rfl, rfl⟩
  exact ⟨fun l => (hnode l).1, fun l => (hnode l).2⟩

lemma tree_tame (htame : ∀ e ∈ done, ∀ target, e.2 = .link target → Tame target) (l : Location)
    (target : String) (h : (w.tree done).readlink l = some target) : Tame target := by
  simp only [readlink, Workspace.tree] at h
  split at h
  · rename_i target' hnode
    cases h
    split_ifs at hnode
    · cases hnode
    · obtain ⟨x, hlookup, hx⟩ := Option.bind_eq_some_iff.mp hnode
      cases x <;> cases hx
      exact tame_normpath (htame _ (Dict.mem_of_lookup hlookup) _ rfl)
  · cases h

lemma Built.realpath (h : Built w destination done inodes fs) (hpaths : w.paths = done ++ rest)
    (htame : ∀ e ∈ w.entries, ∀ target, e.2 = .link target → Tame target) (depth : Nat)
    {path : List String} (hpath : ".." ∉ path) :
    fs.realpath depth destination path =
      ((w.tree done).realpath depth [] path).map (destination ++ ·) := by
  have hdone : ∀ e ∈ done, ∀ target, e.2 = .link target → Tame target := fun e he =>
    htame e (Workspace.mem_paths.mp (hpaths ▸ mem_append_left _ he))
  have hmirrored : fs.realpath depth (destination ++ []) path = _ :=
    realpath_mirrored h.mirrors (tree_tame hdone) depth hpath
  rwa [append_nil] at hmirrored

/-- The links of an entry are resolved in what is archived before it. -/
def Workspace.Linked (w : Workspace) (e : Location × Entry) : Prop :=
  ∀ target, e.2 = .link target → w.Resolves e.1 target

def MemberKind.normal : MemberKind → MemberKind
  | .symlink linkname => .symlink (PurePath.normpath linkname)
  | kind => kind

lemma filterLink_inside {depth : Nat} {m : Member} {directory : List String} {linkname : String}
    (hrelative : (PurePath.parse linkname).absolute = false) {l : Location}
    (h : fs.realpath depth destination (directory ++ PurePath.names linkname) =
      some (destination ++ l)) :
    filterLink fs depth destination m directory linkname = .ok (PurePath.normpath linkname) := by
  rw [filterLink, require_bind hrelative, h]
  exact require_bind_eq_ok.mpr ⟨prefix_append _ _, rfl⟩

lemma Built.filtered (h : Built w destination done inodes fs)
    (hpaths : w.paths = done ++ (init ++ [c], x) :: rest) (hspecial : x ≠ .special)
    (htame : ∀ e ∈ w.entries, ∀ target, e.2 = .link target → Tame target) :
    w.Linked (init ++ [c], x) ∧ dataFilter fs w.entries.length destination
        (w.gettarinfo inodes (init ++ [c]) x).1 =
          .ok ⟨asPosix (init ++ [c]), (w.gettarinfo inodes (init ++ [c]) x).1.kind.normal⟩ ∨
      ¬w.Linked (init ++ [c], x) ∧ ∃ e, dataFilter fs w.entries.length destination
        (w.gettarinfo inodes (init ++ [c]) x).1 = .error e := by
  obtain ⟨hentry, hnames, hfresh, hpaved, habsent⟩ := h.next hpaths
  have hname : ∀ {outside}, requireInside destination
      (fs.realpath w.entries.length destination (init ++ [c])) outside = .ok () := by
    intro outside
    rw [realpath_existing hnames h.root hpaved (by simp [habsent])]
    exact require_true (prefix_append _ _)
  unfold dataFilter
  rw [gettarinfo_name, show PurePath.names (asPosix (init ++ [c])) = init ++ [c] from
    PurePath.names_posix (by simp) hnames, hname, ok_bind]
  cases x with
  | special => exact absurd rfl hspecial
  | dir => exact .inl ⟨nofun, rfl⟩
  | link target =>
    have htarget : Tame target := htame _ hentry target rfl
    have hup : ".." ∉ (init ++ [c]).dropLast ++ PurePath.names target := by
      rw [mem_append, not_or]
      exact ⟨fun hmem => (hnames _ (dropLast_subset _ hmem)).2.2.1 rfl,
        PurePath.up_mem_names.not.mpr htarget.2⟩
    have hdone : w.paths.takeWhile (fun e => e.1 ≠ init ++ [c]) = done := by
      have hbefore : ∀ d ∈ done, d.1 ≠ init ++ [c] := fun d hd heq =>
        hfresh (mem_map.mpr ⟨d, hd, heq⟩)
      rw [hpaths, takeWhile_append_of_pos fun d hd => decide_eq_true (hbefore d hd)]
      simp
    have hlink := h.realpath hpaths htame w.entries.length hup
    cases hresolved : (w.tree done).realpath w.entries.length []
        ((init ++ [c]).dropLast ++ PurePath.names target) with
    | none =>
      refine .inr ⟨fun hlinked => ?_, osError "too many levels of symbolic links", ?_⟩
      · have hresolves := hlinked target rfl
        rw [Workspace.Resolves, hdone, hresolved] at hresolves
        cases hresolves
      · rw [hresolved] at hlink
        change (filterLink _ _ _ _ _ _ >>= _) = _
        rw [filterLink, require_bind htarget.1, hlink]
        rfl
    | some l =>
      rw [hresolved] at hlink
      refine .inl ⟨?_, ?_⟩
      · rintro _ ⟨⟩
        rw [Workspace.Resolves, hdone, hresolved]
        rfl
      · change (filterLink _ _ _ _ _ _ >>= _) = _
        rw [filterLink_inside htarget.1 hlink]
        rfl
  | file inode =>
    refine .inl ⟨nofun, ?_⟩
    cases hseen : Dict.lookup inode inodes with
    | none =>
      rw [gettarinfo_new hseen]
      rfl
    | some first =>
      obtain ⟨a, d, n, rfl, hfirst, hway, hn, -, hfile⟩ := h.first hpaths hseen
      have hreal : fs.realpath w.entries.length destination
          ([] ++ PurePath.names (asPosix (a ++ [d]))) = some (destination ++ (a ++ [d])) := by
        rw [nil_append, asPosix, PurePath.names_posix (by simp) hfirst]
        refine realpath_existing hfirst h.root hway fun target htarget => hfile target ?_
        exact Option.some.inj (hn.symm.trans htarget)
      rw [gettarinfo_again hseen]
      change (filterLink _ _ _ _ _ _ >>= _) = _
      rw [filterLink_inside (tame_asPosix (by simp) hfirst).1 hreal]
      have hnormal : PurePath.normpath (asPosix (a ++ [d])) = asPosix (a ++ [d]) :=
        PurePath.normpath_posix (by simp) hfirst
      rw [hnormal]
      rfl

lemma extractMember_eq {depth limit : Nat} {m m' : Member}
    (hfilter : dataFilter fs depth destination m = .ok m')
    (hname : m'.name = asPosix (init ++ [c])) (hnames : ∀ d ∈ init ++ [c], IsName d)
    (hpaved : Paved fs destination init) :
    extractMember depth limit destination m fs =
      place limit destination (destination ++ init) c m'.kind fs := by
  have hparse : PurePath.parse m'.name = PurePath.relative (init ++ [c]) := by
    rw [hname]
    exact PurePath.parse_posix (by simp) hnames
  have hup : ".." ∉ init := fun hmem => (hnames _ (mem_append_left _ hmem)).2.2.1 rfl
  have hlast : (PurePath.relative (init ++ [c])).parts.getLast? = some c := getLast?_concat
  have hinit : (PurePath.relative (init ++ [c])).parts.dropLast = init := dropLast_concat
  unfold extractMember
  rw [get_bind_apply, hfilter, lift_ok_bind_apply]
  simp only [hparse, hlast, hinit]
  exact bind_ok_apply (makedirs_existing hup hpaved)

lemma replace_absent {base : Location} (hc : c ≠ "..") (hnone : fs.node (base ++ [c]) = none)
    (n : Node) :
    replace base c n fs = (.ok (), fs.put (base ++ [c]) n) := by
  unfold Files.replace
  rw [hnone, if_neg (by simp [hc])]

lemma place_hardlink {limit : Nat} {base : Location} {d : String}
    (hnames : ∀ d ∈ init ++ [c], IsName d) (hpaved : Paved fs destination init)
    (hn : fs.node (destination ++ (init ++ [c])) = some n) (hmatches : Matches w fs x n)
    (hfile : x ≠ .dir) (hlink : ∀ target, n ≠ .link target) :
    place limit destination base d (.hardlink (asPosix (init ++ [c]))) fs =
      replace base d n fs := by
  have hup : ".." ∉ init ++ [c] := fun hmem => (hnames _ hmem).2.2.1 rfl
  have hresolve : fs.resolve false limit destination (init ++ [c]) =
      some (destination ++ (init ++ [c])) :=
    resolve_existing hup hpaved fun target htarget =>
      hlink target (Option.some.inj (hn.symm.trans htarget))
  have hparts : (PurePath.relative (init ++ [c])).parts = init ++ [c] := rfl
  unfold place
  dsimp only
  rw [asPosix, PurePath.parse_posix (by simp) hnames, hparts]
  unfold Files.hardlink
  rw [hresolve, Option.bind_some, hn]
  cases hmatches with
  | dir => exact absurd rfl hfile
  | link target => rfl
  | file => rfl

lemma Built.extract (h : Built w destination done inodes fs)
    (hpaths : w.paths = done ++ (init ++ [c], x) :: rest) (hspecial : x ≠ .special)
    (htame : ∀ e ∈ w.entries, ∀ target, e.2 = .link target → Tame target) (limit : Nat) :
    (w.Linked (init ++ [c], x) ∧ ∃ fs', extractMember w.entries.length limit destination
        (w.gettarinfo inodes (init ++ [c]) x).1 fs = (.ok (), fs') ∧
        Built w destination (done ++ [(init ++ [c], x)])
          (w.gettarinfo inodes (init ++ [c]) x).2 fs') ∨
      ¬w.Linked (init ++ [c], x) ∧ ∃ e, extractMember w.entries.length limit destination
        (w.gettarinfo inodes (init ++ [c]) x).1 fs = (.error e, fs) := by
  obtain ⟨-, hnames, hfresh, hpaved, habsent⟩ := h.next hpaths
  have hne : init ++ [c] ≠ [] := by simp
  have hc : c ≠ ".." := (hnames c (by simp)).2.2.1
  have hnone : fs.node (destination ++ init ++ [c]) = none := by rw [append_assoc, habsent]
  rcases h.filtered hpaths hspecial htame with ⟨hlinked, hfilter⟩ | ⟨hunlinked, e, hfilter⟩
  swap
  · refine .inr ⟨hunlinked, e, ?_⟩
    rw [extractMember, get_bind_apply, hfilter]
    rfl
  refine .inl ⟨hlinked, ?_⟩
  rw [extractMember_eq hfilter rfl hnames hpaved]
  cases x with
  | special => exact absurd rfl hspecial
  | dir =>
    refine ⟨fs.put (destination ++ (init ++ [c])) .dir, ?_, ?_⟩
    · change mkdir limit (destination ++ init) c fs = _
      have henter : enter limit (destination ++ init) c fs =
          (.ok (destination ++ init ++ [c]), fs.put (destination ++ init ++ [c]) .dir) := by
        unfold enter
        rw [if_neg hc, if_pos hnone]
      rw [← append_assoc]
      exact bind_ok_apply henter
    · exact h.add hne hfresh rfl le_rfl (fun _ _ => rfl) .dir fun _ _ => .inl
  | link target =>
    refine ⟨fs.put (destination ++ (init ++ [c])) (.link (PurePath.normpath target)), ?_, ?_⟩
    · rw [← append_assoc]
      exact replace_absent hc hnone _
    · exact h.add hne hfresh rfl le_rfl (fun _ _ => rfl) (.link target) fun _ _ => .inl
  | file inode =>
    cases hseen : Dict.lookup inode inodes with
    | none =>
      rw [gettarinfo_new hseen]
      refine ⟨fs.create (destination ++ (init ++ [c])) (w.body inode), ?_, ?_⟩
      · change write limit (destination ++ init) c (w.body inode) fs = _
        unfold write
        rw [resolve_single hc (by rw [hnone]; simp)]
        dsimp only
        rw [hnone, append_assoc]
      · refine h.add hne hfresh rfl (Nat.le_succ _) ?_ (.file (Nat.lt_succ_self _) ?_) ?_
        · intro i hi
          exact Function.update_of_ne (Nat.ne_of_lt hi) _ _
        · exact Function.update_self _ _ _
        · intro j first hj
          unfold Dict.lookup at hj
          split_ifs at hj with heq
          · cases hj
            exact .inr ⟨congrArg Entry.file heq, rfl⟩
          · exact .inl hj
    | some first =>
      obtain ⟨a, d, n, rfl, hfirst, hway, hn, hmatches, hlink⟩ := h.first hpaths hseen
      rw [gettarinfo_again hseen]
      refine ⟨fs.put (destination ++ (init ++ [c])) n, ?_, ?_⟩
      · change place limit destination _ _ (.hardlink _) _ = _
        rw [place_hardlink hfirst hway hn hmatches (by simp) hlink, ← append_assoc]
        exact replace_absent hc hnone n
      · refine h.add hne hfresh rfl le_rfl (fun _ _ => rfl) ?_ fun _ _ => .inl
        exact hmatches.mono le_rfl fun _ _ => rfl

lemma Built.extractall (h : Built w destination done inodes fs)
    (hpaths : w.paths = done ++ rest) (hspecial : ∀ e ∈ rest, e.2 ≠ .special)
    (htame : ∀ e ∈ w.entries, ∀ target, e.2 = .link target → Tame target) (limit : Nat) :
    ((∀ e ∈ rest, w.Linked e) ∧ ∃ fs' inodes', extractall w.entries.length limit destination
        (w.members inodes rest) fs = (.ok (), fs') ∧ Built w destination w.paths inodes' fs') ∨
      (¬∀ e ∈ rest, w.Linked e) ∧ ∃ e fs', extractall w.entries.length limit destination
        (w.members inodes rest) fs = (.error e, fs') := by
  induction rest generalizing done inodes fs with
  | nil =>
    rw [append_nil] at hpaths
    exact .inl ⟨nofun, fs, inodes, rfl, hpaths ▸ h⟩
  | cons e rest ih =>
    obtain ⟨path, x⟩ := e
    have hentry : (path, x) ∈ w.entries := Workspace.mem_paths.mp (hpaths ▸ by simp)
    obtain rfl | ⟨init, c, rfl⟩ := eq_nil_or_concat' path
    · exact absurd rfl (w.named _ hentry).1
    rw [forall_mem_cons] at hspecial
    rw [forall_mem_cons]
    rcases h.extract hpaths hspecial.1 htame limit with
      ⟨hlinked, mid, hstep, hbuilt⟩ | ⟨hunlinked, e, hstep⟩
    · rcases ih hbuilt (by simp [hpaths]) hspecial.2 with
        ⟨hall, fs', inodes', hrest, hfinal⟩ | ⟨hnot, e, fs', hrest⟩
      · exact .inl ⟨⟨hlinked, hall⟩, fs', inodes', (bind_ok_apply hstep).trans hrest, hfinal⟩
      · exact .inr ⟨fun hboth => hnot hboth.2, e, fs', (bind_ok_apply hstep).trans hrest⟩
    · exact .inr ⟨fun hboth => hunlinked hboth.1, e, fs, bind_error_apply hstep⟩

end extraction

/-! ## The round trip -/

/-- What a reader of a tree sees at a path. -/
inductive Shape where
  | dir
  | file (data : Bytes)
  | link (target : String)
  deriving DecidableEq

def Workspace.shape (w : Workspace) (path : Location) : Option Shape :=
  match Dict.lookup path w.entries with
  | some .dir => some .dir
  | some (.file inode) => some (.file (w.body inode))
  | some (.link target) => some (.link target)
  | _ => none

def shapeAt (fs : Files Bytes) (l : Location) : Option Shape :=
  match fs.node l with
  | some .dir => some .dir
  | some (.file inode) => some (.file (fs.body inode))
  | some (.link target) => some (.link target)
  | none => none

def EmptyDir (fs : Files Bytes) (destination : Location) : Prop :=
  fs.node destination = some .dir ∧ ∀ l, Below destination l → fs.node l = none

/-- What the filter makes of a link. -/
def Shape.normal : Shape → Shape
  | .link target => .link (PurePath.normpath target)
  | shape => shape

lemma Built.start {destination : Location} {fs : Files Bytes} (h : EmptyDir fs destination) :
    Built w destination [] [] fs where
  root := h.1
  entries := nofun
  absent path hne _ := by
    refine h.2 _ ⟨prefix_append _ _, ?_⟩
    intro heq
    exact hne (append_right_eq_self.mp heq.symm)
  firsts := nofun

lemma Built.shape {destination : Location} {fs : Files Bytes}
    (h : Built w destination w.paths inodes fs) (hne : path ≠ []) :
    shapeAt fs (destination ++ path) = (w.shape path).map Shape.normal := by
  unfold shapeAt Workspace.shape
  cases hlookup : Dict.lookup path w.entries with
  | none =>
    have habsent : path ∉ w.paths.map Prod.fst := by
      intro hmem
      obtain ⟨e, he, rfl⟩ := mem_map.mp hmem
      exact Dict.lookup_eq_none.mp hlookup (mem_map_of_mem (Workspace.mem_paths.mp he))
    rw [h.absent path hne habsent]
    rfl
  | some x =>
    have hmem := Workspace.mem_paths.mpr (Dict.mem_of_lookup hlookup)
    obtain ⟨n, hn, hmatches⟩ := h.entries _ hmem
    rw [hn]
    cases hmatches with
    | dir => rfl
    | link target => rfl
    | file hused hbody => exact congrArg (fun data => some (Shape.file data)) hbody

/-- The bytes are accepted and rebuild the workspace in any empty directory. -/
def Reclaimable (tar : Tar) (w : Workspace) (data : Bytes) : Prop :=
  validateWorkspaceArchive tar true [] data = .ok () ∧
    ∀ limit destination fs, EmptyDir fs destination →
      ∃ fs', extractWorkspaceArchive tar limit data destination fs = (.ok (), fs') ∧
        ∀ path, path ≠ [] → shapeAt fs' (destination ++ path) = w.shape path

lemma workspaceArchive_eq_ok {tar : Tar} {data : Bytes}
    (h : workspaceArchive tar w = .ok data) :
    w.paths.length ≤ maxArchiveMembers ∧ (∀ e ∈ w.paths, e.2 ≠ .special) ∧
      (w.paths.map fun e => w.stSize e.2).sum ≤ maxExtractedBytes ∧
      data = tar.write (w.members [] w.paths) ∧ data.length ≤ maxArchiveBytes := by
  obtain ⟨hcount, h⟩ := require_bind_eq_ok.mp h
  obtain ⟨hspecial, h⟩ := require_bind_eq_ok.mp h
  obtain ⟨htotal, h⟩ := require_bind_eq_ok.mp h
  obtain ⟨hlength, h⟩ := require_bind_eq_ok.mp h
  cases h
  exact ⟨hcount, hspecial, htotal, rfl, hlength⟩

lemma members_length (es : List (Location × Entry)) :
    (w.members inodes es).length = es.length := by
  induction es generalizing inodes with
  | nil => rfl
  | cons e es ih => rw [Workspace.members, length_cons, length_cons, ih]

lemma shape_link {target : String} (h : (path, Entry.link target) ∈ w.entries) :
    w.shape path = some (.link target) := by
  unfold Workspace.shape
  rw [Dict.lookup_of_mem w.nodup h]

lemma shape_normal (h : ∀ path target, (path, Entry.link target) ∈ w.entries →
    PurePath.normpath target = target) (path : Location) :
    (w.shape path).map Shape.normal = w.shape path := by
  unfold Workspace.shape
  cases hlookup : Dict.lookup path w.entries with
  | none => rfl
  | some x =>
    cases x with
    | link target =>
      exact congrArg (fun t => some (Shape.link t)) (h path target (Dict.mem_of_lookup hlookup))
    | _ => rfl

/-- A root with nothing in it. -/
def emptyFiles : Files Bytes where
  node l := if l = [] then some .dir else none
  body _ := []
  next := 0

lemma emptyFiles_empty : EmptyDir emptyFiles [] :=
  ⟨rfl, fun _ hl => if_neg (Ne.symm hl.2)⟩

/-- An exported workspace can be reclaimed exactly when its links are relative and never step up,
are in their normal form, and are resolved in what is archived before them. -/
theorem archive_reclaimable_iff (tar : Tar) (w : Workspace) (data : Bytes)
    (h : workspaceArchive tar w = .ok data) :
    Reclaimable tar w data ↔
      ∀ path target, (path, Entry.link target) ∈ w.entries →
        Tame target ∧ PurePath.normpath target = target ∧ w.Resolves path target := by
  obtain ⟨hcount, hspecial, htotal, rfl, hlength⟩ := workspaceArchive_eq_ok h
  have hread := tar.faithful (w.members [] w.paths)
  have hmembers : (w.members [] w.paths).length = w.entries.length :=
    (members_length _).trans (mergeSort_perm _ _).length_eq
  -- Once the gate has accepted the members, extracting the archive is extracting all of them.
  have hextract : ∀ {limit destination fs},
      validatedWorkspaceMembers true [] (w.members [] w.paths) = .ok (w.members [] w.paths) →
      extractWorkspaceArchive tar limit (tar.write (w.members [] w.paths)) destination fs =
        extractall w.entries.length limit destination (w.members [] w.paths) fs := by
    intro limit destination fs hvalid
    unfold extractWorkspaceArchive
    rw [require_true hlength, lift_ok_bind_apply, hread]
    dsimp only
    rw [hvalid, lift_ok_bind_apply, hmembers]
  constructor
  · rintro ⟨hvalid, hrebuilt⟩
    unfold validateWorkspaceArchive at hvalid
    rw [require_bind hlength, hread] at hvalid
    obtain ⟨accepted, hvalid, -⟩ := bind_eq_ok.mp hvalid
    obtain rfl : accepted = w.members [] w.paths := by
      obtain ⟨-, hgate⟩ := require_bind_eq_ok.mp hvalid
      obtain ⟨_, -, hgate⟩ := bind_eq_ok.mp hgate
      cases hgate
      rfl
    have htame : ∀ e ∈ w.entries, ∀ target, e.2 = .link target → Tame target := by
      rintro ⟨path, _⟩ he target rfl
      have hmember : ⟨asPosix path, .symlink target⟩ ∈ w.members [] w.paths :=
        mem_members (Workspace.mem_paths.mpr he)
      exact (validated_accepted hvalid _ hmember).symlink target rfl
    obtain ⟨fs, hok, hshape⟩ := hrebuilt 0 [] emptyFiles emptyFiles_empty
    rw [hextract hvalid] at hok
    rcases (Built.start emptyFiles_empty).extractall rfl hspecial htame 0 with
      ⟨hlinked, fs', inodes, hok', hbuilt⟩ | ⟨-, e, fs', herror⟩
    swap
    · cases hok.symm.trans herror
    obtain ⟨-, rfl⟩ := Prod.mk.inj (hok.symm.trans hok')
    intro path target hlink
    have hsame := hbuilt.shape (w.named _ hlink).1
    rw [hshape path (w.named _ hlink).1, shape_link hlink] at hsame
    exact ⟨htame _ hlink target rfl, (Shape.link.inj (Option.some.inj hsame)).symm,
      hlinked _ (Workspace.mem_paths.mpr hlink) target rfl⟩
  · intro hlinks
    have htame : ∀ e ∈ w.entries, ∀ target, e.2 = .link target → Tame target := by
      rintro ⟨path, _⟩ he target rfl
      exact (hlinks path target he).1
    have hlinked : ∀ e ∈ w.paths, w.Linked e := by
      rintro ⟨path, _⟩ he target rfl
      exact (hlinks path target (Workspace.mem_paths.mp he)).2.2
    obtain ⟨gate, hgate⟩ : ∃ gate,
        (w.members [] w.paths).foldlM (checkMember true []) ⟨[], 0⟩ = .ok gate :=
      members_accepted (fun e he => w.named e (Workspace.mem_paths.mp he)) w.paths_nodup hspecial
        (fun e he => htame e (Workspace.mem_paths.mp he))
        (by simpa using htotal) (fun _ _ => not_mem_nil) nofun
    have hvalid : validatedWorkspaceMembers true [] (w.members [] w.paths) =
        .ok (w.members [] w.paths) := by
      unfold validatedWorkspaceMembers
      rw [require_bind (by rw [members_length]; exact hcount), hgate]
      rfl
    refine ⟨?_, ?_⟩
    · unfold validateWorkspaceArchive
      rw [require_bind hlength, hread]
      dsimp only
      rw [hvalid]
      rfl
    · intro limit destination fs hempty
      rcases (Built.start hempty).extractall rfl hspecial htame limit with
        ⟨-, fs', inodes', hok, hbuilt⟩ | ⟨hunlinked, -⟩
      swap
      · exact absurd hlinked hunlinked
      refine ⟨fs', (hextract hvalid).trans hok, ?_⟩
      intro path hne
      rw [hbuilt.shape hne, shape_normal fun path target hlink => (hlinks path target hlink).2.1]

instance countableChar : Countable Char :=
  Function.Injective.countable (f := Char.toNat) fun _ _ h => Char.toNat_inj.mp h

instance countableString : Countable String :=
  Function.Injective.countable (f := String.toList) fun _ _ h => String.toList_inj.mp h

deriving instance Countable for MemberKind

deriving instance Countable for Member

lemma tar_exists (members : List Member) : ∃ tar : Tar, tar.write members = [] := by
  classical
  obtain ⟨code, hcode⟩ := Countable.exists_injective_nat (List Member)
  have hswap : Function.Injective fun ms => Equiv.swap (code members) 0 (code ms) :=
    (Equiv.injective _).comp hcode
  have hwrite : Function.Injective fun ms =>
      List.replicate (Equiv.swap (code members) 0 (code ms)) (0 : UInt8) := by
    intro a b h
    refine hswap ?_
    have hlength := congrArg List.length h
    rwa [length_replicate, length_replicate] at hlength
  refine ⟨⟨_, Function.partialInv fun ms =>
    List.replicate (Equiv.swap (code members) 0 (code ms)) (0 : UInt8),
    Function.partialInv_left hwrite⟩, ?_⟩
  dsimp only
  rw [Equiv.swap_apply_left]
  rfl

def toolEntries (target : String) : List (Location × Entry) :=
  [(["bin"], .dir), (["bin", "same"], .file 0), (["bin", "tool"], .link target), (["lib"], .dir),
    (["lib", "tool"], .file 0)]

def toolPaths : List Location :=
  [["bin"], ["bin", "same"], ["bin", "tool"], ["lib"], ["lib", "tool"]]

lemma toolEntries_nodup (target : String) : ((toolEntries target).map Prod.fst).Nodup := by
  change toolPaths.Nodup
  decide +kernel

lemma toolEntries_named (target : String) :
    ∀ e ∈ toolEntries target, e.1 ≠ [] ∧ ∀ c ∈ e.1, IsName c := by
  have hnamed : ∀ path ∈ toolPaths, path ≠ [] ∧ ∀ c ∈ path, IsName c := by decide +kernel
  intro e he
  exact hnamed e.1 (mem_map_of_mem he)

lemma toolEntries_closed (target : String) : ∀ e ∈ toolEntries target,
    e.1.dropLast ≠ [] → (e.1.dropLast, Entry.dir) ∈ toolEntries target := by
  simp [toolEntries]

def toolWorkspace (target : String) : Workspace where
  entries := toolEntries target
  body _ := [7]
  nodup := toolEntries_nodup target
  named := toolEntries_named target
  closed := toolEntries_closed target

lemma toolWorkspace_paths (target : String) :
    (toolWorkspace target).paths = toolEntries target := by
  refine mergeSort_of_pairwise ?_
  have hsorted : toolPaths.Pairwise fun a b => decide (asPosix a ≤ asPosix b) = true := by
    decide +kernel
  exact pairwise_map.mp (show ((toolEntries target).map Prod.fst).Pairwise _ from hsorted)

lemma toolWorkspace_archived (target : String) (tar : Tar)
    (htar : tar.write ((toolWorkspace target).members [] (toolEntries target)) = []) :
    workspaceArchive tar (toolWorkspace target) = .ok [] := by
  unfold workspaceArchive
  rw [toolWorkspace_paths]
  dsimp only
  rw [htar, require_bind (by simp [toolEntries, maxArchiveMembers]),
    require_bind (by simp [toolEntries])]
  rfl

theorem archive_reclaimable_same : ∃ tar data,
    workspaceArchive tar (toolWorkspace "same") = .ok data ∧
      Reclaimable tar (toolWorkspace "same") data := by
  obtain ⟨tar, htar⟩ := tar_exists ((toolWorkspace "same").members [] (toolEntries "same"))
  have harchive := toolWorkspace_archived "same" tar htar
  refine ⟨tar, [], harchive, (archive_reclaimable_iff tar _ [] harchive).mpr ?_⟩
  intro path target hlink
  have htarget : path = ["bin", "tool"] ∧ target = "same" := by
    simpa [toolWorkspace, toolEntries] using hlink
  rw [htarget.1, htarget.2, Workspace.Resolves, toolWorkspace_paths]
  decide +kernel

/-- A link to a file of the same workspace is archived and then refused. -/
theorem archive_refused_sibling : ∃ tar data,
    workspaceArchive tar (toolWorkspace "../lib/tool") = .ok data ∧
      validateWorkspaceArchive tar true [] data =
        .error (valueError "unsafe archive link: 'bin/tool'") := by
  obtain ⟨tar, htar⟩ :=
    tar_exists ((toolWorkspace "../lib/tool").members [] (toolEntries "../lib/tool"))
  have hread := tar.faithful ((toolWorkspace "../lib/tool").members [] (toolEntries "../lib/tool"))
  rw [htar] at hread
  refine ⟨tar, [], toolWorkspace_archived "../lib/tool" tar htar, ?_⟩
  unfold validateWorkspaceArchive
  rw [require_bind (by decide), hread]
  decide +kernel

end Petrus.Motus
