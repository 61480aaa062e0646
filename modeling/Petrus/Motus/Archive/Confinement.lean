import Petrus.Motus.Archive.Gate

/-!
# Archive confinement

An accepted member has a relative name and a relative link target, neither of which steps up,
so what is extracted stays below the destination whatever links were extracted before.
-/

namespace Petrus.Motus

open Lib Files List

variable {allowLinks : Bool} {forbiddenRoots : List String} {m : Member} {members : List Member}
  {destination base : Location} {start : Files Bytes}

/-- What the gate has checked of a member's paths. -/
structure Accepted (m : Member) : Prop where
  relative : (PurePath.parse m.name).absolute = false
  inside : ".." ∉ (PurePath.parse m.name).parts
  symlink : ∀ linkname, m.kind = .symlink linkname → Tame linkname
  hardlink : ∀ linkname, m.kind = .hardlink linkname → Tame linkname

lemma checkLink_eq_ok {target resolved : PurePath}
    (h : checkLink allowLinks m target resolved = .ok ()) :
    target.absolute = false ∧ ".." ∉ resolved.parts := by
  obtain ⟨-, h⟩ := require_bind_eq_ok.mp h
  exact require_eq_ok.mp h

lemma checkKind_links {extracted extracted' : Nat} {name : PurePath}
    (h : checkKind allowLinks extracted m name = .ok extracted') :
    (∀ linkname, m.kind = .symlink linkname → Tame linkname) ∧
      ∀ linkname, m.kind = .hardlink linkname → Tame linkname := by
  unfold checkKind at h
  cases hkind : m.kind with
  | file | dir | other => exact ⟨nofun, nofun⟩
  | symlink linkname =>
    rw [hkind] at h
    obtain ⟨_, hlink, -⟩ := bind_eq_ok.mp h
    obtain ⟨hrelative, hup⟩ := checkLink_eq_ok hlink
    refine ⟨?_, nofun⟩
    rintro _ ⟨⟩
    refine ⟨hrelative, fun hmem => hup ?_⟩
    unfold PurePath.join
    rw [if_neg (by simp [hrelative])]
    exact mem_append_right _ hmem
  | hardlink linkname =>
    rw [hkind] at h
    obtain ⟨_, hlink, -⟩ := bind_eq_ok.mp h
    refine ⟨nofun, ?_⟩
    rintro _ ⟨⟩
    exact checkLink_eq_ok hlink

lemma checkMember_accepted {gate gate' : Gate}
    (h : checkMember allowLinks forbiddenRoots gate m = .ok gate') : Accepted m := by
  obtain ⟨⟨hrelative, hinside⟩, h⟩ := require_bind_eq_ok.mp h
  obtain ⟨-, h⟩ := require_bind_eq_ok.mp h
  obtain ⟨-, h⟩ := require_bind_eq_ok.mp h
  obtain ⟨extracted, hkind, -⟩ := bind_eq_ok.mp h
  obtain ⟨hsymlink, hhardlink⟩ := checkKind_links hkind
  exact ⟨hrelative, hinside, hsymlink, hhardlink⟩

lemma validated_accepted {accepted : List Member}
    (h : validatedWorkspaceMembers allowLinks forbiddenRoots members = .ok accepted) :
    ∀ m ∈ members, Accepted m := by
  obtain ⟨-, h⟩ := require_bind_eq_ok.mp h
  obtain ⟨gate, hfold, -⟩ := bind_eq_ok.mp h
  intro m hm
  obtain ⟨before, after, hstep⟩ := foldlM_step hfold hm
  exact checkMember_accepted hstep

/-! ## One member, then all -/

lemma filterLink_eq_ok {depth : Nat} {directory : List String} {linkname linkname' : String}
    (h : filterLink start depth destination m directory linkname = .ok linkname') :
    linkname' = PurePath.normpath linkname := by
  obtain ⟨-, h⟩ := require_bind_eq_ok.mp h
  obtain ⟨_, -, h⟩ := bind_eq_ok.mp h
  cases h
  rfl

lemma dataFilter_accepted {depth : Nat} {m' : Member} (hm : Accepted m)
    (h : dataFilter start depth destination m = .ok m') : Accepted m' := by
  obtain ⟨_, -, h⟩ := bind_eq_ok.mp h
  cases hkind : m.kind with
  | symlink linkname =>
    rw [hkind] at h
    obtain ⟨_, hlink, h⟩ := bind_eq_ok.mp h
    obtain rfl := filterLink_eq_ok hlink
    cases h
    refine { hm with symlink := ?_, hardlink := nofun }
    rintro _ ⟨⟩
    exact tame_normpath (hm.symlink _ hkind)
  | hardlink linkname =>
    rw [hkind] at h
    obtain ⟨_, hlink, h⟩ := bind_eq_ok.mp h
    obtain rfl := filterLink_eq_ok hlink
    cases h
    refine { hm with symlink := nofun, hardlink := ?_ }
    rintro _ ⟨⟩
    exact tame_normpath (hm.hardlink _ hkind)
  | file | dir =>
    rw [hkind] at h
    cases h
    exact hm
  | other =>
    rw [hkind] at h
    cases h

lemma place_keeps (hroot : start.node destination = some .dir) (limit : Nat) {c : String}
    (hbase : destination <+: base) (hc : c ≠ "..") (hm : Accepted m) :
    (place limit destination base c m.kind).Keeps (Confined destination start) fun _ => True := by
  cases hkind : m.kind with
  | file data => exact write_keeps hroot limit hbase hc data
  | dir => exact mkdir_keeps limit hbase hc
  | symlink linkname => exact replace_keeps hbase (hm.symlink linkname hkind)
  | hardlink linkname => exact hardlink_keeps hroot limit hbase (hm.hardlink linkname hkind).2
  | other => exact Act.Keeps.pure trivial

lemma extractMember_keeps (hroot : start.node destination = some .dir) (depth limit : Nat)
    (hm : Accepted m) :
    (extractMember depth limit destination m).Keeps (Confined destination start)
      fun _ => True := by
  refine Act.Keeps.get.bind fun fs _ => (Act.Keeps.lift _).bind fun m' hfilter => ?_
  have hm' := dataFilter_accepted hm hfilter
  dsimp only
  cases hlast : (PurePath.parse m'.name).parts.getLast? with
  | none =>
    dsimp only
    split_ifs
    · exact Act.Keeps.pure trivial
    · exact Act.Keeps.throw _
  | some c =>
    have hc : c ≠ ".." := by
      rintro rfl
      exact hm'.inside (mem_of_getLast? hlast)
    have hdirs : ".." ∉ (PurePath.parse m'.name).parts.dropLast := fun hmem =>
      hm'.inside (dropLast_subset _ hmem)
    exact (makedirs_keeps limit prefix_rfl hdirs).bind fun base hbase =>
      place_keeps hroot limit hbase hc hm'

lemma extractall_keeps (hroot : start.node destination = some .dir) (depth limit : Nat)
    (hmembers : ∀ m ∈ members, Accepted m) :
    (extractall depth limit destination members).Keeps (Confined destination start)
      fun _ => True := by
  induction members with
  | nil => exact Act.Keeps.pure trivial
  | cons m rest ih =>
    rw [forall_mem_cons] at hmembers
    exact (extractMember_keeps hroot depth limit hmembers.1).bind fun _ _ => ih hmembers.2

/-- Extracting any number of accepted members into an empty directory, also when a member
raises, leaves everything outside it as it was: nothing is created or replaced there, no file
there is written, none of them gets a second name inside, and no link inside leads out. -/
theorem extraction_confined (depth limit n : Nat)
    (haccepted : validatedWorkspaceMembers allowLinks forbiddenRoots members = .ok members)
    (hroot : start.node destination = some .dir)
    (hempty : ∀ l, Below destination l → start.node l = none)
    (hinodes : ∀ l i, start.node l = some (.file i) → i < start.next) :
    let fs := (extractall depth limit destination (members.take n) start).2
    (∀ l, ¬Below destination l → fs.node l = start.node l) ∧
      (∀ l i, start.node l = some (.file i) → fs.body i = start.body i) ∧
      (∀ l k i, Below destination l → fs.node l = some (.file i) → start.node k ≠ some (.file i)) ∧
      ∀ l target links k, Below destination l → fs.node l = some (.link target) →
        fs.leadsTo links l target = some k → destination <+: k := by
  have hall : ∀ m ∈ members.take n, Accepted m := fun m hm =>
    validated_accepted haccepted m (mem_of_mem_take hm)
  have hconfined := (extractall_keeps hroot depth limit hall start (confined_start hempty)).1
  refine ⟨hconfined.outside, ?_, ?_, ?_⟩
  · intro l i hl
    exact hconfined.bodies i (hinodes l i hl)
  · intro l k i hl hfile hk
    have hfresh := hconfined.fresh l i hl hfile
    have hold := hinodes k i hk
    omega
  · intro l target links k hl hlink hk
    exact leadsTo_inside hconfined hl hlink hk

/-- A link to the member after it, a file written through the link, and a second name for it. -/
def linkedMembers : List Member :=
  [⟨"bin", .symlink "lib"⟩, ⟨"lib", .dir⟩, ⟨"bin/tool", .file [1]⟩, ⟨"tool", .hardlink "lib/tool"⟩]

def outsideFiles : Files Bytes where
  node l := if l = ["work"] then some .dir else if l = ["key"] then some (.file 0) else none
  body _ := [7]
  next := 1

lemma outsideFiles_below (l : Location) (h : Below ["work"] l) : outsideFiles.node l = none := by
  obtain ⟨⟨t, rfl⟩, hne⟩ := h
  unfold outsideFiles
  dsimp only
  rw [if_neg (Ne.symm hne), if_neg (by simp)]

lemma outsideFiles_inodes (l : Location) (i : Nat) (h : outsideFiles.node l = some (.file i)) :
    i < outsideFiles.next := by
  unfold outsideFiles at h
  dsimp only at h
  split_ifs at h
  · cases h
  · cases h
    decide

theorem extraction_confined_links :
    let fs := (extractall 4 40 ["work"] (linkedMembers.take 4) outsideFiles).2
    fs.node ["work", "lib", "tool"] = fs.node ["work", "tool"] ∧
      fs.node ["key"] = some (.file 0) ∧ fs.body 0 = [7] := by
  have haccepted : validatedWorkspaceMembers true [] linkedMembers = .ok linkedMembers := by
    decide +kernel
  have hroot : outsideFiles.node ["work"] = some .dir := by decide +kernel
  have hconfined :=
    extraction_confined 4 40 4 haccepted hroot outsideFiles_below outsideFiles_inodes
  refine ⟨by decide +kernel, hconfined.1 ["key"] (by decide +kernel), ?_⟩
  exact hconfined.2.1 ["key"] 0 (by decide +kernel)

end Petrus.Motus
