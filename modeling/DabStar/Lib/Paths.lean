import Mathlib.Data.List.Basic
import Mathlib.Data.List.Infix

/-! Slash separated paths and the places they name once the `.` and `..` components are
resolved. Walking on from a place is attaching the walk made from nowhere. -/

namespace DabStar.Lib.Paths
open List
variable {p d : Place}

abbrev Text := List Char

def components : Text → List Text
  | [] => [[]]
  | c :: cs =>
    if c = '/' then [] :: components cs
    else
      match components cs with
      | [] => [[c]]
      | first :: rest => (c :: first) :: rest

theorem componentsNonempty (path : Text) : components path ≠ [] := by
  cases path with
  | nil => simp [components]
  | cons c cs =>
    simp only [components]
    split
    · simp
    · split <;> simp

theorem componentsSlash (front back : Text) : components (front ++ '/' :: back) = components front ++ components back := by
  induction front with
  | nil => simp [components]
  | cons c cs ih =>
    simp only [cons_append,components,ih]
    split
    · rfl
    · cases parts : components cs with
      | nil => exact absurd parts (componentsNonempty cs)
      | cons first rest => rfl

theorem componentsPlain {path : Text} (plain : '/' ∉ path) : components path = [path] := by
  induction path with
  | nil => rfl
  | cons c cs ih =>
    simp only [mem_cons,not_or] at plain
    simp [components,ih plain.2,Ne.symm plain.1]

structure Place where
  rooted : Bool
  ups : Nat
  names : List Text
  deriving DecidableEq, Repr

def here : Place := ⟨false,0,[]⟩

def Place.up (p : Place) : Place :=
  if p.names = [] then
    if p.rooted then p else { p with ups := p.ups + 1 }
  else { p with names := p.names.dropLast }

def Place.step (p : Place) (component : Text) : Place :=
  if component = [] ∨ component = ['.'] then p
  else if component = ['.','.'] then p.up
  else { p with names := p.names ++ [component] }

def Place.walk (p : Place) (parts : List Text) : Place := parts.foldl Place.step p

def resolve (path : Text) : Place := Place.walk ⟨decide (path.head? = some '/'),0,[]⟩ (components path)

theorem walkCons (p : Place) (c : Text) (parts : List Text) : p.walk (c :: parts) = (p.step c).walk parts := rfl

theorem walkAppend (p : Place) (front back : List Text) : p.walk (front ++ back) = (p.walk front).walk back := by simp [Place.walk]

theorem resolveBelow (folder rest : Text) : resolve (folder ++ '/' :: rest) = (resolve (folder ++ ['/'])).walk (components rest) := by
  have start : (folder ++ '/' :: rest).head? = (folder ++ ['/']).head? := by
    cases folder <;> rfl
  have empty : ∀ p : Place, p.walk (components []) = p := by simp [components,Place.walk,Place.step]
  simp only [resolve,start,componentsSlash,walkAppend,empty]

def Place.attach (p d : Place) : Place where
  rooted := p.rooted
  ups := if p.rooted then p.ups else p.ups + (d.ups - p.names.length)
  names := p.names.take (p.names.length - d.ups) ++ d.names

theorem attachHere (p : Place) : p.attach here = p := by simp [Place.attach,here]

theorem stepRooted (p : Place) (c : Text) : (p.step c).rooted = p.rooted := by
  simp only [Place.step,Place.up]
  split_ifs <;> rfl

theorem attachUp (relative : d.rooted = false) : (p.attach d).up = p.attach d.up := by
  by_cases inner : d.names = []
  · -- the walk stands at its highest point, so the climb is made in `p`
    by_cases left : p.names.length ≤ d.ups
    · have gone : p.names.length - d.ups = 0 := by omega
      have still : p.names.length - (d.ups + 1) = 0 := by omega
      cases rooted : p.rooted <;>
        simp [Place.up,Place.attach,inner,relative,gone,still,rooted]
      omega
    · have some : p.names ≠ [] := by
        intro none
        simp [none] at left
      have fewer : p.names.length - d.ups ≠ 0 := by omega
      have climb : d.ups - p.names.length = 0 := by omega
      have next : d.ups + 1 - p.names.length = 0 := by omega
      simp only [Place.up,Place.attach,inner,relative,append_nil,take_eq_nil_iff,
        fewer,some,or_self,if_false,if_true,climb,next,dropLast_eq_take,
        take_take,length_take,Bool.false_eq_true]
      congr 2
      omega
  · simp [Place.up,Place.attach,inner,dropLast_append_of_ne_nil inner]

theorem attachStep (relative : d.rooted = false) (c : Text) : (p.attach d).step c = p.attach (d.step c) := by
  simp only [Place.step]
  split_ifs
  · rfl
  · exact attachUp relative
  · simp [Place.attach]

theorem attachWalk (relative : d.rooted = false) (parts : List Text) : (p.attach d).walk parts = p.attach (d.walk parts) := by
  induction parts generalizing d with
  | nil => rfl
  | cons c parts ih =>
    rw [walkCons,walkCons,attachStep relative]
    exact ih ((stepRooted d c).trans relative)

theorem walkAttach (p : Place) (parts : List Text) : p.walk parts = p.attach (here.walk parts) := by rw [← attachWalk rfl,attachHere]

structure Place.Holds (p q : Place) : Prop where
  rooted : q.rooted = p.rooted
  ups : q.ups = p.ups
  below : p.names <+: q.names

instance (p q : Place) : Decidable (p.Holds q) :=
  decidable_of_iff (q.rooted = p.rooted ∧ q.ups = p.ups ∧ p.names <+: q.names)
    ⟨fun h => ⟨h.1,h.2.1,h.2.2⟩,fun h => ⟨h.rooted,h.ups,h.below⟩⟩

/- A relative walk returns into `p`: it climbs over no more than `p` has, unless the root
stops it, and takes again the names it climbed over. -/
def Place.Returns (p d : Place) : Prop :=
  (p.rooted = true ∨ d.ups ≤ p.names.length) ∧
    p.names.drop (p.names.length - d.ups) <+: d.names

instance (p d : Place) : Decidable (p.Returns d) := by unfold Place.Returns; infer_instance

theorem attachBelow (p d : Place) : p.names <+: (p.attach d).names ↔ p.names.drop (p.names.length - d.ups) <+: d.names := by
  conv_lhs => lhs; rw [← take_append_drop (p.names.length - d.ups) p.names]
  exact prefix_append_right_inj _

theorem holdsAttach (p d : Place) : p.Holds (p.attach d) ↔ p.Returns d := by
  constructor
  · intro held
    refine ⟨?_,(attachBelow p d).mp held.below⟩
    cases rooted : p.rooted with
    | true => exact Or.inl rfl
    | false =>
      have same := held.ups
      simp only [Place.attach,rooted,Bool.false_eq_true,if_false] at same
      exact Or.inr (by omega)
  · rintro ⟨bounded,again⟩
    refine ⟨rfl,?_,(attachBelow p d).mpr again⟩
    simp only [Place.attach]
    split
    · rfl
    · rename_i free
      have few := bounded.resolve_left free
      omega

theorem holdsWalk (p : Place) (parts : List Text) : p.Holds (p.walk parts) ↔ p.Returns (here.walk parts) := by rw [walkAttach,holdsAttach]

end DabStar.Lib.Paths
