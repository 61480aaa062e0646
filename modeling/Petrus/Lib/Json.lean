import Mathlib

/-!
# JSON values and their two equalities

A JSON value keeps the insertion order of its members and tells the integer `1`,
the float `1.0` and the boolean `true` apart. Two equalities forget some of this:
Python's `==` (member order is irrelevant, numbers and booleans compare by value)
and equality of the sorted JSON text (member order is irrelevant, types are not).
Each is equality of a normal form.
-/

namespace Petrus.Lib

open List

variable {f : Json → Json} {k : String} {ms ns : List (String × Json)} {a b : Json}
variable {P : Json → Prop}

/-- A finite Python number; a finite float is a dyadic rational or the negative zero. -/
inductive PyNumber where
  | int (n : Int)
  | float (d : Dyadic)
  | negZero
  deriving DecidableEq

namespace PyNumber

/-- The normal form of a number under Python's `==`. -/
def value : PyNumber → PyNumber
  | int n => int n
  | float .zero => int 0
  | float (.ofOdd n k h) => if k ≤ 0 then int (n * 2 ^ (-k).toNat) else float (.ofOdd n k h)
  | negZero => int 0

def toDyadic : PyNumber → Dyadic
  | int n => .ofInt n
  | float d => d
  | negZero => 0

def kind : PyNumber → String
  | int _ => "int"
  | float _ => "float"
  | negZero => "-0.0"

lemma toDyadic_value (n : PyNumber) : n.value.toDyadic = n.toDyadic := by
  cases n with
  | int n => rfl
  | negZero => rfl
  | float d =>
    cases d with
    | zero => rfl
    | ofOdd m k h =>
      simp only [value]
      split_ifs with hk
      · obtain ⟨j, rfl⟩ : ∃ j : Nat, k = -j := ⟨(-k).toNat, by omega⟩
        rw [← Dyadic.toRat_inj]
        change ((m * 2 ^ (- -(j : Int)).toNat : Int) : Dyadic).toRat = (Dyadic.ofOdd m (-j) h).toRat
        rw [Dyadic.toRat_intCast, Dyadic.toRat_ofOdd_eq_mul_two_pow]
        simp
      · rfl

lemma eq_of_value {n m : PyNumber} (hvalue : n.value = m.value) (hkind : n.kind = m.kind) :
    n = m := by
  have hdyadic : n.toDyadic = m.toDyadic := by rw [← n.toDyadic_value, ← m.toDyadic_value, hvalue]
  cases n <;> cases m <;> simp_all [kind, toDyadic, value]

lemma kind_ne_bool (n : PyNumber) : n.kind ≠ "bool" := by cases n <;> simp [kind]

end PyNumber

inductive Json where
  | null
  | bool (b : Bool)
  | num (n : PyNumber)
  | str (s : String)
  | arr (items : List Json)
  | obj (members : List (String × Json))

namespace Json

mutual

def beq : Json → Json → Bool
  | null, null => true
  | bool a, bool b => a == b
  | num a, num b => decide (a = b)
  | str a, str b => a == b
  | arr a, arr b => beqItems a b
  | obj a, obj b => beqMembers a b
  | _, _ => false

def beqItems : List Json → List Json → Bool
  | [], [] => true
  | a :: as, b :: bs => beq a b && beqItems as bs
  | _, _ => false

def beqMembers : List (String × Json) → List (String × Json) → Bool
  | [], [] => true
  | (k, a) :: as, (l, b) :: bs => k == l && beq a b && beqMembers as bs
  | _, _ => false

end

mutual

lemma beq_iff : ∀ a b : Json, beq a b = true ↔ a = b
  | null, b => by cases b <;> simp [beq]
  | bool a, b => by cases b <;> simp [beq]
  | num a, b => by cases b <;> simp [beq]
  | str a, b => by cases b <;> simp [beq]
  | arr a, b => by cases b <;> simp [beq, beqItems_iff]
  | obj a, b => by cases b <;> simp [beq, beqMembers_iff]

lemma beqItems_iff : ∀ a b : List Json, beqItems a b = true ↔ a = b
  | [], b => by cases b <;> simp [beqItems]
  | a :: as, b => by cases b <;> simp [beqItems, beq_iff, beqItems_iff]

lemma beqMembers_iff : ∀ a b : List (String × Json), beqMembers a b = true ↔ a = b
  | [], b => by cases b <;> simp [beqMembers]
  | (k, a) :: as, b => by
    cases b <;> simp [beqMembers, beq_iff, beqMembers_iff, Prod.ext_iff]

end

instance : DecidableEq Json := fun a b => decidable_of_iff (beq a b = true) (beq_iff a b)

def sortMembers (members : List (String × Json)) : List (String × Json) :=
  members.insertionSort fun a b => a.1 ≤ b.1

mutual

/-- Sort the members of every object and rewrite every scalar with `f`. -/
def normal (f : Json → Json) : Json → Json
  | arr items => arr (normalItems f items)
  | obj members => obj (sortMembers (normalMembers f members))
  | scalar => f scalar

def normalItems (f : Json → Json) : List Json → List Json
  | [] => []
  | a :: as => normal f a :: normalItems f as

def normalMembers (f : Json → Json) : List (String × Json) → List (String × Json)
  | [] => []
  | (k, a) :: as => (k, normal f a) :: normalMembers f as

end

/-- The normal form under Python's `==`: booleans are the integers 0 and 1. -/
def value : Json → Json :=
  normal fun
    | bool b => num (.int (if b then 1 else 0))
    | num n => num n.value
    | scalar => scalar

/-- The normal form of the type-sensitive JSON text with sorted member names. -/
def spelling : Json → Json := normal id

lemma mem_normalMembers {v : Json} {ms : List (String × Json)} :
    (k, v) ∈ normalMembers f ms ↔ ∃ a, (k, a) ∈ ms ∧ normal f a = v := by
  induction ms with
  | nil => simp [normalMembers]
  | cons m ms ih =>
    obtain ⟨j, a⟩ := m
    simp only [normalMembers, mem_cons, ih, Prod.mk.injEq]
    constructor
    · intro h
      rcases h with ⟨rfl, rfl⟩ | ⟨b, hb, rfl⟩
      · exact ⟨a, .inl ⟨rfl, rfl⟩, rfl⟩
      · exact ⟨b, .inr hb, rfl⟩
    · intro h
      obtain ⟨b, hb, rfl⟩ := h
      rcases hb with ⟨rfl, rfl⟩ | hb
      · exact .inl ⟨rfl, rfl⟩
      · exact .inr ⟨b, hb, rfl⟩

lemma keys_normalMembers (f : Json → Json) (ms : List (String × Json)) :
    (normalMembers f ms).map Prod.fst = ms.map Prod.fst := by
  induction ms with
  | nil => rfl
  | cons m ms ih => simp [normalMembers, ih]

lemma sortMembers_perm (ms : List (String × Json)) : (sortMembers ms).Perm ms :=
  perm_insertionSort _ _

lemma sortMembers_congr (h : ms.Perm ns)
    (hn : (ms.map Prod.fst).Nodup) : sortMembers ms = sortMembers ns := by
  have hperm : (sortMembers ms).Perm (sortMembers ns) :=
    (sortMembers_perm ms).trans (h.trans (sortMembers_perm ns).symm)
  have : Std.Total fun a b : String × Json => a.1 ≤ b.1 := ⟨fun a b => le_total a.1 b.1⟩
  have : IsTrans (String × Json) fun a b => a.1 ≤ b.1 := ⟨fun _ _ _ => le_trans⟩
  refine hperm.eq_of_pairwise ?_ (pairwise_insertionSort _ _) (pairwise_insertionSort _ _)
  intro a b ha hb hab hba
  exact inj_on_of_nodup_map hn ((sortMembers_perm ms).subset ha)
    (h.symm.subset ((sortMembers_perm ns).subset hb)) (le_antisymm hab hba)

lemma normalMembers_perm (h : (obj ms).normal f = (obj ns).normal f) :
    (normalMembers f ms).Perm (normalMembers f ns) := by
  have hsorted : sortMembers (normalMembers f ms) = sortMembers (normalMembers f ns) := by
    simpa [normal] using h
  exact (sortMembers_perm _).symm.trans (hsorted ▸ sortMembers_perm _)

lemma keys_perm
    (h : (obj ms).normal f = (obj ns).normal f) : (ms.map Prod.fst).Perm (ns.map Prod.fst) := by
  have hkeys := (normalMembers_perm h).map Prod.fst
  rwa [keys_normalMembers, keys_normalMembers] at hkeys

lemma normal_counterpart (h : (obj ms).normal f = (obj ns).normal f) {a : Json} (ha : (k, a) ∈ ms) :
    ∃ b, (k, b) ∈ ns ∧ b.normal f = a.normal f :=
  mem_normalMembers.mp ((normalMembers_perm h).subset (mem_normalMembers.mpr ⟨a, ha, rfl⟩))

lemma spelling_member (h : (obj ms).spelling = (obj ns).spelling) (ha : (k, a) ∈ ms)
    (hb : ∀ c, (k, c) ∈ ns → c = b) :
    a.spelling = b.spelling := by
  obtain ⟨c, hc, hspelling⟩ := normal_counterpart h ha
  rw [hb c hc] at hspelling
  exact hspelling.symm

lemma normal_obj_of_members {f g : Json → Json}
    (h : (obj ms).normal f = (obj ns).normal f) (hn : (ms.map Prod.fst).Nodup)
    (each : ∀ k a b, (k, a) ∈ ms → (k, b) ∈ ns → a.normal f = b.normal f →
      a.normal g = b.normal g) :
    (obj ms).normal g = (obj ns).normal g := by
  have hms : ((normalMembers g ms).map Prod.fst).Nodup := by rwa [keys_normalMembers]
  have hns : ((normalMembers g ns).map Prod.fst).Nodup := by
    rw [keys_normalMembers]
    exact (keys_perm h).nodup hn
  have hperm : (normalMembers g ms).Perm (normalMembers g ns) := by
    rw [perm_ext_iff_of_nodup hms.of_map hns.of_map]
    rintro ⟨k, v⟩
    rw [mem_normalMembers, mem_normalMembers]
    constructor
    · rintro ⟨a, ha, rfl⟩
      obtain ⟨b, hb, hab⟩ := normal_counterpart h ha
      exact ⟨b, hb, (each k a b ha hb hab.symm).symm⟩
    · rintro ⟨b, hb, rfl⟩
      obtain ⟨a, ha, hab⟩ := normal_counterpart h.symm hb
      exact ⟨a, ha, each k a b ha hb hab⟩
  simp only [normal, sortMembers_congr hperm hms]

lemma normal_arr_of_items {f g : Json → Json} :
    ∀ {as bs : List Json}, (arr as).normal f = (arr bs).normal f →
      (∀ p ∈ as.zip bs, p.1.normal f = p.2.normal f → p.1.normal g = p.2.normal g) →
        (arr as).normal g = (arr bs).normal g
  | [], [], _, _ => by simp [normal, normalItems]
  | [], _ :: _, h, _ => by simp [normal, normalItems] at h
  | _ :: _, [], h, _ => by simp [normal, normalItems] at h
  | a :: as, b :: bs, h, each => by
    simp only [normal, normalItems, arr.injEq, List.cons.injEq] at h
    simp only [zip_cons_cons, forall_mem_cons] at each
    have htail : (arr as).normal g = (arr bs).normal g :=
      normal_arr_of_items (f := f) (by simp only [normal, h.2]) each.2
    simp only [normal, arr.injEq] at htail
    simp only [normal, normalItems, each.1 h.1, htail]

def isScalar : Json → Bool
  | arr _ => false
  | obj _ => false
  | _ => true

mutual

lemma members_induction (scalar : ∀ a, a.isScalar = true → P a)
    (array : ∀ items, (∀ a ∈ items, P a) → P (arr items))
    (object : ∀ ms : List (String × Json), (∀ m ∈ ms, P m.2) → P (obj ms)) : ∀ a, P a
  | null => scalar null rfl
  | bool b => scalar (bool b) rfl
  | num n => scalar (num n) rfl
  | str s => scalar (str s) rfl
  | arr items => array items (items_induction scalar array object items)
  | obj ms => object ms (objects_induction scalar array object ms)

lemma items_induction (scalar : ∀ a, a.isScalar = true → P a)
    (array : ∀ items, (∀ a ∈ items, P a) → P (arr items))
    (object : ∀ ms : List (String × Json), (∀ m ∈ ms, P m.2) → P (obj ms)) :
    ∀ (items : List Json), ∀ a ∈ items, P a
  | [] => by simp
  | a :: as => forall_mem_cons.mpr
      ⟨members_induction scalar array object a, items_induction scalar array object as⟩

lemma objects_induction (scalar : ∀ a, a.isScalar = true → P a)
    (array : ∀ items, (∀ a ∈ items, P a) → P (arr items))
    (object : ∀ ms : List (String × Json), (∀ m ∈ ms, P m.2) → P (obj ms)) :
    ∀ (ms : List (String × Json)), ∀ m ∈ ms, P m.2
  | [] => by simp
  | (_, a) :: ms => forall_mem_cons.mpr
      ⟨members_induction scalar array object a, objects_induction scalar array object ms⟩

end

lemma normalItems_eq (f : Json → Json) (items : List Json) :
    normalItems f items = items.map (normal f) := by
  induction items with
  | nil => rfl
  | cons a as ih => simp [normalItems, ih]

lemma normalMembers_eq (f : Json → Json) (ms : List (String × Json)) :
    normalMembers f ms = ms.map fun m => (m.1, normal f m.2) := by
  induction ms with
  | nil => rfl
  | cons m ms ih => simp [normalMembers, ih]

lemma sortMembers_normalMembers (f : Json → Json) (ms : List (String × Json)) :
    sortMembers (normalMembers f ms) = (sortMembers ms).map fun m => (m.1, normal f m.2) := by
  rw [normalMembers_eq, sortMembers, sortMembers]
  have hcommute := map_insertionSort (fun a b : String × Json => a.1 ≤ b.1)
    (fun a b : String × Json => a.1 ≤ b.1) (fun m => (m.1, normal f m.2)) ms
  exact (hcommute fun _ _ _ _ => Iff.rfl).symm

lemma normal_scalar {a : Json} (h : a.isScalar = true) : a.normal f = f a := by
  cases a <;> first | rfl | cases h

lemma forall₂_both {α β : Type} {R S T : α → β → Prop} {as : List α} {bs : List β}
    (h : List.Forall₂ R as bs) (h' : List.Forall₂ S as bs)
    (each : ∀ a ∈ as, ∀ b, R a b → S a b → T a b) : List.Forall₂ T as bs := by
  induction h with
  | nil => exact .nil
  | cons hab _ ih =>
    cases h' with
    | cons hab' h' =>
      rw [forall_mem_cons] at each
      exact .cons (each.1 _ hab hab') (ih h' each.2)

lemma normal_of_normals {f g k : Json → Json}
    (hf : ∀ a, a.isScalar = true → (f a).isScalar = true)
    (hfg : ∀ a b, a.isScalar = true → b.isScalar = true → f a = f b → g a = g b → k a = k b) :
    ∀ a b : Json, a.normal f = b.normal f → a.normal g = b.normal g → a.normal k = b.normal k := by
  have hscalar : ∀ {a b : Json}, a.isScalar = true → b.isScalar = false →
      a.normal f ≠ b.normal f := by
    intro a b ha hb h
    rw [normal_scalar ha] at h
    have hkind := hf a ha
    cases b with
    | arr | obj => simp [h, normal, isScalar] at hkind
    | _ => cases hb
  intro a
  induction a using members_induction with
  | scalar a ha =>
    intro b h h'
    cases hb : b.isScalar with
    | false => exact absurd h (hscalar ha hb)
    | true =>
      rw [normal_scalar ha, normal_scalar hb] at h h' ⊢
      exact hfg a b ha hb h h'
  | array items ih =>
    intro b h h'
    cases b with
    | arr others =>
      simp only [normal, normalItems_eq, arr.injEq] at h h'
      simp only [normal, normalItems_eq, arr.injEq]
      rw [← forall₂_eq_eq_eq, forall₂_map_left_iff, forall₂_map_right_iff] at h h' ⊢
      exact forall₂_both h h' ih
    | obj ms => simp [normal] at h
    | _ => exact absurd h.symm (hscalar rfl rfl)
  | object ms ih =>
    intro b h h'
    cases b with
    | obj others =>
      simp only [normal, sortMembers_normalMembers, obj.injEq] at h h'
      simp only [normal, sortMembers_normalMembers, obj.injEq]
      rw [← forall₂_eq_eq_eq, forall₂_map_left_iff, forall₂_map_right_iff] at h h' ⊢
      refine forall₂_both h h' ?_
      intro m hm n hmn hmn'
      rw [Prod.mk.injEq] at hmn hmn' ⊢
      exact ⟨hmn.1, ih m ((sortMembers_perm ms).subset hm) n.2 hmn.2 hmn'.2⟩
    | arr items => simp [normal] at h
    | _ => exact absurd h.symm (hscalar rfl rfl)

def kind : Json → Json
  | bool _ => str "bool"
  | num n => str n.kind
  | str _ => str "str"
  | scalar => scalar

def kinds : Json → Json := normal kind

/-- The scalar rewriting behind `value`. -/
def scalarValue : Json → Json
  | bool b => num (.int (if b then 1 else 0))
  | num n => num n.value
  | scalar => scalar

lemma scalar_eq (ha : a.isScalar = true) (hb : b.isScalar = true)
    (hvalue : a.scalarValue = b.scalarValue) (hkind : a.kind = b.kind) : a = b := by
  cases a with
  | num n =>
    cases b with
    | num m => rw [PyNumber.eq_of_value (num.inj hvalue) (str.inj hkind)]
    | bool y => exact absurd (str.inj hkind) n.kind_ne_bool
    | _ => cases hvalue
  | bool x =>
    cases b with
    | num m => exact absurd (str.inj hkind).symm m.kind_ne_bool
    | bool y => cases x <;> cases y <;> simp_all [scalarValue]
    | _ => cases hvalue
  | _ => cases b <;> simp_all [kind, scalarValue]

lemma map_sortMembers (f : Json → Json) (ms : List (String × Json)) :
    normalMembers f (sortMembers ms) = sortMembers (normalMembers f ms) := by
  rw [normalMembers_eq, normalMembers_eq]
  exact map_insertionSort _ _ _ _ fun _ _ _ _ => Iff.rfl

lemma normal_spelling (f : Json → Json) (a : Json) : a.spelling.normal f = a.normal f := by
  induction a using members_induction with
  | scalar a h =>
    have hscalar : a.spelling = a := normal_scalar h
    rw [hscalar]
  | array items ih =>
    rw [spelling, normal, normal, normal, normalItems_eq, normalItems_eq, normalItems_eq, map_map]
    exact congrArg arr (map_congr_left ih)
  | object ms ih =>
    have : Std.Total fun a b : String × Json => a.1 ≤ b.1 := ⟨fun a b => le_total a.1 b.1⟩
    have : IsTrans (String × Json) fun a b => a.1 ≤ b.1 := ⟨fun _ _ _ => le_trans⟩
    have hmembers : normalMembers f (normalMembers id ms) = normalMembers f ms := by
      rw [normalMembers_eq, normalMembers_eq, normalMembers_eq, map_map]
      exact map_congr_left fun m hm => congrArg (m.1, ·) (ih m hm)
    have hsorted : sortMembers (sortMembers (normalMembers f ms)) =
        sortMembers (normalMembers f ms) := (pairwise_insertionSort _ _).insertionSort_eq
    rw [spelling, normal, normal, normal, map_sortMembers, hmembers, hsorted]

lemma spelling_spelling (a : Json) : a.spelling.spelling = a.spelling := normal_spelling id a

lemma spelling_iff_kinds (h : a.value = b.value) :
    a.spelling = b.spelling ↔ a.kinds = b.kinds := by
  constructor
  · intro hspelling
    exact normal_of_normals (fun _ hx => hx) (fun x y _ _ hxy _ => congrArg kind hxy) a b hspelling
      hspelling
  · intro hkinds
    refine normal_of_normals ?_ (fun x y => scalar_eq) a b h hkinds
    intro x hx
    cases x <;> first | rfl | cases hx

example : value (num (.float (.ofOdd 1 0 rfl))) = value (bool true) := by decide

example : spelling (num (.float (.ofOdd 1 0 rfl))) ≠ spelling (num (.int 1)) := by decide

end Json

/-- An object as the JSON encoder sees it: one with a strict JSON round trip, or one without. -/
inductive Payload where
  | faithful (value : Json)
  | foreign
  deriving DecidableEq

end Petrus.Lib
