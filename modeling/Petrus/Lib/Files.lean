import Petrus.Lib.Act
import Petrus.Lib.Fold
import Petrus.Lib.PurePath

/-!
# A file system with links

What stands at a location, what an inode holds, and the system calls that change them. A
path is walked component by component and every symbolic link on the way is followed, up to
a limit of links. When the links below a directory are relative and never step up, no call
that starts below it leaves it.
-/

namespace Petrus.Lib

open List

variable {rest : List String}

abbrev Location := List String

inductive Node where
  | dir
  | file (inode : Nat)
  | link (target : String)
  deriving DecidableEq

structure Files (β : Type) where
  node : Location → Option Node
  body : Nat → β
  next : Nat

def osError (text : String) : Exc := ⟨"OSError", false, text, [quoted text]⟩

namespace Files

variable {β : Type}

def put (fs : Files β) (l : Location) (n : Node) : Files β :=
  { fs with node := Function.update fs.node l (some n) }

def create (fs : Files β) (l : Location) (data : β) : Files β where
  node := Function.update fs.node l (some (.file fs.next))
  body := Function.update fs.body fs.next data
  next := fs.next + 1

def rewrite (fs : Files β) (inode : Nat) (data : β) : Files β :=
  { fs with body := Function.update fs.body inode data }

/-! ## Resolution -/

def walk (fs : Files β) (follow : Bool) (jump : Location → List String → Option Location) :
    Location → List String → Option Location
  | base, [] => some base
  | base, c :: rest =>
    if c = ".." then walk fs follow jump base.dropLast rest
    else
      match fs.node (base ++ [c]) with
      | some (.link target) =>
        if rest = [] ∧ follow = false then some (base ++ [c])
        else
          let path := PurePath.parse target
          jump (if path.absolute then [] else base) (path.parts ++ rest)
      | some .dir => walk fs follow jump (base ++ [c]) rest
      | _ => if rest = [] then some (base ++ [c]) else none

/-- Where a path leads; `limit` is how many links are followed, `follow` whether a link at its
end is. -/
def resolve (fs : Files β) (follow : Bool) : Nat → Location → List String → Option Location
  | 0 => walk fs follow fun _ _ => none
  | limit + 1 => walk fs follow (resolve fs follow limit)

def leadsTo (fs : Files β) (limit : Nat) (l : Location) (target : String) : Option Location :=
  let path := PurePath.parse target
  fs.resolve true limit (if path.absolute then [] else l.dropLast) path.parts

def isFile (fs : Files β) (l : Location) : Bool :=
  match fs.node l with
  | some (.file _) => true
  | _ => false

def readlink (fs : Files β) (l : Location) : Option String :=
  match fs.node l with
  | some (.link target) => some target
  | _ => none

def realwalk (fs : Files β) (jump : Location → List String → Option Location) :
    Location → List String → Option Location
  | base, [] => some base
  | base, c :: rest =>
    if fs.isFile base then none
    else if c = "" ∨ c = "." then realwalk fs jump base rest
    else if c = ".." then realwalk fs jump base.dropLast rest
    else
      match fs.readlink (base ++ [c]) with
      | none => realwalk fs jump (base ++ [c]) rest
      | some target =>
        (jump (if (PurePath.parse target).absolute then [] else base)
          (PurePath.names target)).bind fun l => realwalk fs jump l rest

/-- The location a path names, whether anything is there or not; nothing when it goes on past a
file, or loops: when it follows more than `depth` links, each while resolving the one before. -/
def realpath (fs : Files β) : Nat → Location → List String → Option Location
  | 0 => realwalk fs fun _ _ => none
  | depth + 1 => realwalk fs (realpath fs depth)

/-! ## System calls -/

def enter (limit : Nat) (base : Location) (c : String) : Act (Files β) Exc Location := fun fs =>
  if c = ".." then (.ok base.dropLast, fs)
  else if fs.node (base ++ [c]) = none then (.ok (base ++ [c]), fs.put (base ++ [c]) .dir)
  else
    match fs.resolve true limit base [c] with
    | none => (.error (osError "too many levels of symbolic links"), fs)
    | some l =>
      if fs.node l = some .dir then (.ok l, fs) else (.error (osError "file exists"), fs)

def makedirs (limit : Nat) : Location → List String → Act (Files β) Exc Location
  | base, [] => pure base
  | base, c :: rest => do
    let here ← enter limit base c
    makedirs limit here rest

def mkdir (limit : Nat) (base : Location) (c : String) : Act (Files β) Exc Unit := do
  let _ ← enter limit base c

def write (limit : Nat) (base : Location) (c : String) (data : β) : Act (Files β) Exc Unit :=
  fun fs =>
    match fs.resolve true limit base [c] with
    | none => (.error (osError "too many levels of symbolic links"), fs)
    | some l =>
      match fs.node l with
      | none => (.ok (), fs.create l data)
      | some (.file inode) => (.ok (), fs.rewrite inode data)
      | some _ => (.error (osError "is a directory"), fs)

def replace (base : Location) (c : String) (n : Node) : Act (Files β) Exc Unit := fun fs =>
  if c = ".." ∨ fs.node (base ++ [c]) = some .dir then (.error (osError "is a directory"), fs)
  else (.ok (), fs.put (base ++ [c]) n)

def symlink (target : String) (base : Location) (c : String) : Act (Files β) Exc Unit :=
  replace base c (.link target)

def hardlink (limit : Nat) (root : Location) (source : List String) (base : Location)
    (c : String) : Act (Files β) Exc Unit := fun fs =>
  match (fs.resolve false limit root source).bind fs.node with
  | none => (.error (osError "no such file or directory"), fs)
  | some .dir => (.error (osError "operation not permitted"), fs)
  | some n => replace base c n fs

/-! ## Confinement -/

def Below (root l : Location) : Prop := root <+: l ∧ root ≠ l

instance (root l : Location) : Decidable (Below root l) :=
  inferInstanceAs (Decidable (root <+: l ∧ root ≠ l))

def Tame (target : String) : Prop :=
  (PurePath.parse target).absolute = false ∧ ".." ∉ (PurePath.parse target).parts

instance (target : String) : Decidable (Tame target) :=
  inferInstanceAs
    (Decidable ((PurePath.parse target).absolute = false ∧ ".." ∉ (PurePath.parse target).parts))

lemma tame_normpath {target : String} (h : Tame target) : Tame (PurePath.normpath target) := by
  unfold Tame
  rw [PurePath.parse_normpath h.2]
  exact ⟨rfl, h.2⟩

variable {root base l : Location} {c : String} {start fs : Files β}

lemma below_snoc (h : root <+: base) (c : String) : Below root (base ++ [c]) := by
  refine ⟨h.trans (prefix_append _ _), ?_⟩
  rintro rfl
  have hlength := h.length_le
  rw [length_append, length_singleton] at hlength
  omega

/-- `fs` differs from `start` only below the root, holds no file of `start` there, and its links
there never step up. -/
structure Confined (root : Location) (start fs : Files β) : Prop where
  outside : ∀ l, ¬Below root l → fs.node l = start.node l
  bodies : ∀ i < start.next, fs.body i = start.body i
  fresh : ∀ l i, Below root l → fs.node l = some (.file i) → start.next ≤ i
  tame : ∀ l target, Below root l → fs.node l = some (.link target) → Tame target
  grows : start.next ≤ fs.next

lemma walk_inside (h : Confined root start fs) {follow : Bool}
    {jump : Location → List String → Option Location}
    (hjump : ∀ base rest l, root <+: base → ".." ∉ rest → jump base rest = some l → root <+: l)
    (hbase : root <+: base) (hrest : ".." ∉ rest)
    (hl : walk fs follow jump base rest = some l) : root <+: l := by
  induction rest generalizing base with
  | nil =>
    cases hl
    exact hbase
  | cons c rest ih =>
    rw [mem_cons, not_or] at hrest
    obtain ⟨hc, hrest⟩ := hrest
    have hhere : root <+: base ++ [c] := hbase.trans (prefix_append _ _)
    unfold walk at hl
    rw [if_neg (Ne.symm hc)] at hl
    cases hnode : fs.node (base ++ [c]) with
    | none =>
      rw [hnode] at hl
      dsimp only at hl
      split_ifs at hl
      cases hl
      exact hhere
    | some n =>
      rw [hnode] at hl
      cases n with
      | dir => exact ih hhere hrest hl
      | file i =>
        dsimp only at hl
        split_ifs at hl
        cases hl
        exact hhere
      | link target =>
        obtain ⟨hrelative, hup⟩ := h.tame _ target (below_snoc hbase c) hnode
        dsimp only at hl
        split_ifs at hl with hend habsolute
        · cases hl
          exact hhere
        · exact absurd habsolute (by simp [hrelative])
        · refine hjump _ _ l hbase ?_ hl
          rw [mem_append]
          rintro (hmem | hmem)
          · exact hup hmem
          · exact hrest hmem

lemma resolve_inside (h : Confined root start fs) {follow : Bool} {limit : Nat}
    (hbase : root <+: base) (hrest : ".." ∉ rest)
    (hl : resolve fs follow limit base rest = some l) : root <+: l := by
  induction limit generalizing base rest l with
  | zero =>
    refine walk_inside h ?_ hbase hrest hl
    rintro _ _ _ - - ⟨⟩
  | succ limit ih => exact walk_inside h (fun _ _ _ hb hr => ih hb hr) hbase hrest hl

lemma leadsTo_inside (h : Confined root start fs) {limit : Nat} {target : String}
    {k : Location} (hl : Below root l) (hlink : fs.node l = some (.link target))
    (hk : fs.leadsTo limit l target = some k) : root <+: k := by
  obtain ⟨hrelative, hup⟩ := h.tame l target hl hlink
  unfold leadsTo at hk
  dsimp only at hk
  rw [if_neg (by simp [hrelative])] at hk
  refine resolve_inside h ?_ hup hk
  obtain ⟨⟨t, rfl⟩, hne⟩ := hl
  have ht : t ≠ [] := by
    rintro rfl
    exact hne (append_nil root).symm
  rw [dropLast_append_of_ne_nil ht]
  exact prefix_append _ _

lemma confined_start (hempty : ∀ l, Below root l → start.node l = none) :
    Confined root start start where
  outside _ _ := rfl
  bodies _ _ := rfl
  fresh l i hl h := by
    rw [hempty l hl] at h
    cases h
  tame l target hl h := by
    rw [hempty l hl] at h
    cases h
  grows := le_rfl

def Admits (start : Files β) : Node → Prop
  | .dir => True
  | .file inode => start.next ≤ inode
  | .link target => Tame target

lemma Confined.admits (h : Confined root start fs) (hl : Below root l) {n : Node}
    (hn : fs.node l = some n) : Admits start n := by
  cases n with
  | dir => trivial
  | file i => exact h.fresh l i hl hn
  | link target => exact h.tame l target hl hn

lemma Confined.put (h : Confined root start fs) (hl : Below root l) {n : Node}
    (hn : Admits start n) : Confined root start (fs.put l n) where
  outside k hk := by
    have hne : k ≠ l := fun heq => hk (heq ▸ hl)
    exact (Function.update_of_ne hne _ _).trans (h.outside k hk)
  bodies := h.bodies
  fresh k i hk hnode := by
    by_cases heq : k = l
    · subst heq
      cases (Function.update_self k _ fs.node).symm.trans hnode
      exact hn
    · exact h.fresh k i hk ((Function.update_of_ne heq _ _).symm.trans hnode)
  tame k target hk hnode := by
    by_cases heq : k = l
    · subst heq
      cases (Function.update_self k _ fs.node).symm.trans hnode
      exact hn
    · exact h.tame k target hk ((Function.update_of_ne heq _ _).symm.trans hnode)
  grows := h.grows

lemma Confined.rewrite (h : Confined root start fs) {i : Nat} (hi : start.next ≤ i) (data : β) :
    Confined root start (fs.rewrite i data) where
  outside := h.outside
  bodies j hj := (Function.update_of_ne (by omega) _ _).trans (h.bodies j hj)
  fresh := h.fresh
  tame := h.tame
  grows := h.grows

lemma Confined.create (h : Confined root start fs) (hl : Below root l) (data : β) :
    Confined root start (fs.create l data) := by
  have hput := h.put hl (n := .file fs.next) h.grows
  exact ⟨hput.outside, (h.rewrite h.grows data).bodies, hput.fresh, hput.tame,
    h.grows.trans (Nat.le_succ _)⟩

/-! ## Calls below the root -/

section calls

variable (hroot : start.node root = some .dir)

lemma enter_keeps (limit : Nat) (hbase : root <+: base) (hc : c ≠ "..") :
    (enter limit base c : Act (Files β) Exc Location).Keeps (Confined root start)
      fun l => root <+: l := by
  intro fs h
  unfold enter
  rw [if_neg hc]
  split_ifs with hnone
  · refine ⟨h.put (below_snoc hbase c) trivial, ?_⟩
    rintro l ⟨⟩
    exact (below_snoc hbase c).1
  · cases hresolve : fs.resolve true limit base [c] with
    | none => exact ⟨h, nofun⟩
    | some l =>
      dsimp only
      split_ifs
      · refine ⟨h, ?_⟩
        rintro k ⟨⟩
        exact resolve_inside h hbase (by simpa using Ne.symm hc) hresolve
      · exact ⟨h, nofun⟩

lemma makedirs_keeps (limit : Nat) (hbase : root <+: base) (hrest : ".." ∉ rest) :
    (makedirs limit base rest : Act (Files β) Exc Location).Keeps (Confined root start)
      fun l => root <+: l := by
  induction rest generalizing base with
  | nil => exact Act.Keeps.pure hbase
  | cons c rest ih =>
    rw [mem_cons, not_or] at hrest
    exact (enter_keeps limit hbase (Ne.symm hrest.1)).bind fun here hhere => ih hhere hrest.2

lemma mkdir_keeps (limit : Nat) (hbase : root <+: base) (hc : c ≠ "..") :
    (mkdir limit base c : Act (Files β) Exc Unit).Keeps (Confined root start) fun _ => True :=
  (enter_keeps limit hbase hc).bind fun _ _ => Act.Keeps.pure trivial

include hroot in
lemma write_keeps (limit : Nat) (hbase : root <+: base) (hc : c ≠ "..") (data : β) :
    (write limit base c data : Act (Files β) Exc Unit).Keeps (Confined root start)
      fun _ => True := by
  intro fs h
  unfold write
  cases hresolve : fs.resolve true limit base [c] with
  | none => exact ⟨h, nofun⟩
  | some l =>
    have hinside := resolve_inside h hbase (by simpa using Ne.symm hc) hresolve
    have hbelow : fs.node l ≠ some .dir → Below root l := by
      intro hdir
      refine ⟨hinside, ?_⟩
      rintro rfl
      exact hdir ((h.outside root fun hself => hself.2 rfl).trans hroot)
    dsimp only
    cases hnode : fs.node l with
    | none => exact ⟨h.create (hbelow (by simp [hnode])) data, fun _ _ => trivial⟩
    | some n =>
      cases n with
      | file i =>
        exact ⟨h.rewrite (h.fresh l i (hbelow (by simp [hnode])) hnode) data, fun _ _ => trivial⟩
      | dir | link => exact ⟨h, nofun⟩

lemma replace_keeps (hbase : root <+: base) {n : Node} (hn : Admits start n) :
    (replace base c n : Act (Files β) Exc Unit).Keeps (Confined root start) fun _ => True := by
  intro fs h
  unfold replace
  split_ifs
  · exact ⟨h, nofun⟩
  · exact ⟨h.put (below_snoc hbase c) hn, fun _ _ => trivial⟩

include hroot in
lemma hardlink_keeps (limit : Nat) (hbase : root <+: base) {source : List String}
    (hsource : ".." ∉ source) :
    (hardlink limit root source base c : Act (Files β) Exc Unit).Keeps (Confined root start)
      fun _ => True := by
  intro fs h
  unfold hardlink
  cases hresolve : (fs.resolve false limit root source).bind fs.node with
  | none => exact ⟨h, nofun⟩
  | some n =>
    obtain ⟨l, hl, hnode⟩ := Option.bind_eq_some_iff.mp hresolve
    have hinside := resolve_inside h prefix_rfl hsource hl
    by_cases hdir : n = .dir
    · subst hdir
      exact ⟨h, nofun⟩
    · have hbelow : Below root l := by
        refine ⟨hinside, ?_⟩
        rintro rfl
        rw [h.outside root fun hself => hself.2 rfl, hroot] at hnode
        exact hdir (Option.some.inj hnode).symm
      have hkeeps := replace_keeps (c := c) hbase (h.admits hbelow hnode) fs h
      cases n with
      | dir => exact absurd rfl hdir
      | file i => exact hkeeps
      | link target => exact hkeeps

end calls

/-! ## Paths resolved alike -/

/-- Below `root` `fs` has the files and the links of `tree`. -/
structure Mirrors (root : Location) (fs tree : Files β) : Prop where
  isFile : ∀ l, fs.isFile (root ++ l) = tree.isFile l
  readlink : ∀ l, fs.readlink (root ++ l) = tree.readlink l

lemma realwalk_mirrored {tree : Files β} (h : Mirrors root fs tree)
    (htame : ∀ l target, tree.readlink l = some target → Tame target)
    {jump jump' : Location → List String → Option Location}
    (hjump : ∀ base path, ".." ∉ path →
      jump (root ++ base) path = (jump' base path).map (root ++ ·))
    {path : List String} (hpath : ".." ∉ path) :
    realwalk fs jump (root ++ base) path = (realwalk tree jump' base path).map (root ++ ·) := by
  induction path generalizing base with
  | nil => rfl
  | cons c rest ih =>
    rw [mem_cons, not_or] at hpath
    rw [realwalk, realwalk, h.isFile, append_assoc, h.readlink, if_neg (Ne.symm hpath.1),
      if_neg (Ne.symm hpath.1)]
    split_ifs
    · rfl
    · exact ih hpath.2
    · cases hlink : tree.readlink (base ++ [c]) with
      | none => exact ih hpath.2
      | some target =>
        obtain ⟨hrelative, hup⟩ := htame _ target hlink
        dsimp only
        rw [hrelative, if_neg Bool.false_ne_true, if_neg Bool.false_ne_true,
          hjump base _ (PurePath.up_mem_names.not.mpr hup)]
        cases jump' base (PurePath.names target) with
        | none => rfl
        | some l => exact ih hpath.2

lemma realpath_mirrored {tree : Files β} (h : Mirrors root fs tree)
    (htame : ∀ l target, tree.readlink l = some target → Tame target) (depth : Nat)
    {path : List String} (hpath : ".." ∉ path) :
    fs.realpath depth (root ++ base) path = (tree.realpath depth base path).map (root ++ ·) := by
  induction depth generalizing base path with
  | zero => exact realwalk_mirrored h htame (fun _ _ _ => rfl) hpath
  | succ depth ih => exact realwalk_mirrored h htame (fun _ _ hup => ih hup) hpath

end Files

end Petrus.Lib
