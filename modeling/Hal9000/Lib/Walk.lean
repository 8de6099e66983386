import Mathlib.Data.Finset.Card
import Mathlib.Data.List.Infix

set_option autoImplicit false

namespace Hal9000.Lib

variable {A : Type} {next : A -> Option A} {start a b : A} {path other : List A}

inductive Follows (next : A -> Option A) : A -> List A -> Prop
  | single {a : A} : Follows next a [a]
  | step {a b : A} {path : List A} (leads : next a = some b) (rest : Follows next b path) :
      Follows next a (a :: path)

inductive Walk (next : A -> Option A) : A -> List A -> Prop
  | last {a : A} (ends : next a = none) : Walk next a [a]
  | step {a b : A} {path : List A} (leads : next a = some b) (rest : Walk next b path) : Walk next a (a :: path)

structure Tour (next : A -> Option A) (start : A) (path : List A) : Prop where
  follows : Follows next start path
  distinct : path.Nodup
  closed : forall a, a ∈ path -> forall b, next a = some b -> b ∈ path

def Reaches (next : A -> Option A) (start a : A) : Prop :=
  ∃ path, Follows next start path ∧ a ∈ path

namespace Follows

theorem start_mem (follows : Follows next start path) : start ∈ path := by
  cases follows with
  | single => exact List.mem_singleton_self _
  | step => exact List.mem_cons_self

-- Links are a function, so that of two paths one continues the other.
theorem isPrefix (follows : Follows next start path) (longer : Follows next start other)
    (length : path.length ≤ other.length) : path <+: other := by
  induction follows generalizing other with
  | single =>
    cases longer with
    | single => exact List.prefix_rfl
    | step => exact ⟨_, rfl⟩
  | step leads rest ih =>
    cases longer with
    | single =>
      have positive := List.length_pos_of_mem rest.start_mem
      simp only [List.length_cons, List.length_nil] at length
      omega
    | step also longer =>
      obtain rfl := Option.some.inj (leads.symm.trans also)
      exact (List.prefix_cons_inj _).mpr (ih longer (Nat.le_of_succ_le_succ length))

theorem snoc (follows : Follows next start path) (last : path.getLast? = some a) (leads : next a = some b) :
    Follows next start (path ++ [b]) := by
  induction follows with
  | single =>
    obtain rfl := Option.some.inj last
    exact .step leads .single
  | step link rest ih =>
    rw [List.getLast?_cons_of_ne_nil (List.ne_nil_of_mem rest.start_mem)] at last
    exact .step link (ih last)

theorem closed_but_last (follows : Follows next start path) (member : a ∈ path) :
    path.getLast? = some a ∨ ∃ b, next a = some b ∧ b ∈ path := by
  induction follows with
  | single => exact .inl (by rw [List.mem_singleton.mp member]; rfl)
  | step leads rest ih =>
    rw [List.getLast?_cons_of_ne_nil (List.ne_nil_of_mem rest.start_mem)]
    rcases List.mem_cons.mp member with rfl | inside
    · exact .inr ⟨_, leads, List.mem_cons_of_mem _ rest.start_mem⟩
    · rcases ih inside with last | ⟨behind, link, there⟩
      · exact .inl last
      · exact .inr ⟨behind, link, List.mem_cons_of_mem _ there⟩

theorem mem_of_closed (follows : Follows next start path) {set : A -> Prop} (begins : set start)
    (closed : forall a, set a -> forall b, next a = some b -> set b) (member : a ∈ path) : set a := by
  induction follows with
  | single => rwa [List.mem_singleton.mp member]
  | step leads rest ih =>
    rcases List.mem_cons.mp member with rfl | inside
    · exact begins
    · exact ih (closed _ begins _ leads) inside

theorem transfer {also : A -> Option A} (follows : Follows next start path)
    (links : forall a, a ∈ path -> forall b, next a = some b -> also a = some b) : Follows also start path := by
  induction follows with
  | single => exact .single
  | step leads _ ih =>
    exact .step (links _ List.mem_cons_self _ leads) (ih (fun a member => links a (List.mem_cons_of_mem _ member)))

end Follows

namespace Walk

theorem follows (walk : Walk next start path) : Follows next start path := by
  induction walk with
  | last => exact .single
  | step leads _ ih => exact .step leads ih

theorem start_mem (walk : Walk next start path) : start ∈ path := walk.follows.start_mem

theorem unique (walk : Walk next start path) (also : Walk next start other) : path = other := by
  induction walk generalizing other with
  | last ends =>
    cases also with
    | last => rfl
    | step leads => exact absurd (ends.symm.trans leads) (by simp)
  | step leads _ ih =>
    cases also with
    | last ends => exact absurd (ends.symm.trans leads) (by simp)
    | step link rest =>
      obtain rfl := Option.some.inj (leads.symm.trans link)
      rw [ih rest]

theorem suffix (walk : Walk next start path) (member : a ∈ path) :
    ∃ rest, Walk next a rest ∧ rest.length ≤ path.length := by
  induction walk with
  | last ends =>
    rw [List.mem_singleton.mp member]
    exact ⟨_, .last ends, Nat.le_refl _⟩
  | step leads rest ih =>
    rcases List.mem_cons.mp member with rfl | inside
    · exact ⟨_, .step leads rest, Nat.le_refl _⟩
    · obtain ⟨shorter, walk, length⟩ := ih inside
      exact ⟨shorter, walk, length.trans (Nat.le_succ _)⟩

theorem nodup (walk : Walk next start path) : path.Nodup := by
  induction walk with
  | last => exact List.nodup_cons.mpr ⟨List.not_mem_nil, List.nodup_nil⟩
  | step leads rest ih =>
    refine List.nodup_cons.mpr ⟨fun again => ?_, ih⟩
    obtain ⟨shorter, walk, length⟩ := rest.suffix again
    rw [walk.unique (.step leads rest), List.length_cons] at length
    omega

theorem tour (walk : Walk next start path) : Tour next start path := by
  refine ⟨walk.follows, walk.nodup, ?_⟩
  induction walk with
  | last ends =>
    intro a member b leads
    rw [List.mem_singleton.mp member, ends] at leads
    cases leads
  | step leads rest ih =>
    intro a member b link
    rcases List.mem_cons.mp member with rfl | inside
    · obtain rfl := Option.some.inj (leads.symm.trans link)
      exact List.mem_cons_of_mem _ rest.start_mem
    · exact List.mem_cons_of_mem _ (ih a inside b link)

end Walk

namespace Tour

theorem mem_of_reaches (tour : Tour next start path) (reaches : Reaches next start a) : a ∈ path := by
  obtain ⟨steps, follows, member⟩ := reaches
  exact follows.mem_of_closed tour.follows.start_mem tour.closed member

theorem exists_of_finite [DecidableEq A] (bound : Finset A) (finite : forall a, Reaches next start a -> a ∈ bound) :
    ∃ path, Tour next start path := by
  -- A path that is no tour can be made longer, up to the number of elements.
  have grow (length : Nat) : (∃ path, Tour next start path) ∨
      ∃ path, Follows next start path ∧ path.Nodup ∧ path.length = length + 1 := by
    induction length with
    | zero => exact .inr ⟨[start], .single, List.nodup_cons.mpr ⟨List.not_mem_nil, List.nodup_nil⟩, rfl⟩
    | succ length ih =>
      rcases ih with tour | ⟨path, follows, distinct, counted⟩
      · exact .inl tour
      · by_cases open_ : ∃ a, path.getLast? = some a ∧ ∃ b, next a = some b ∧ b ∉ path
        · obtain ⟨a, last, b, leads, outside⟩ := open_
          refine .inr ⟨path ++ [b], follows.snoc last leads, ?_, by simp [counted]⟩
          refine List.nodup_append.mpr ⟨distinct, List.nodup_cons.mpr ⟨List.not_mem_nil, List.nodup_nil⟩, ?_⟩
          intro x inside y new
          rw [List.mem_singleton.mp new]
          rintro rfl
          exact outside inside
        · refine .inl ⟨path, follows, distinct, fun a member b leads => ?_⟩
          rcases follows.closed_but_last member with last | ⟨behind, link, there⟩
          · by_contra outside
            exact open_ ⟨a, last, b, leads, outside⟩
          · rwa [Option.some.inj (leads.symm.trans link)]
  rcases grow bound.card with tour | ⟨path, follows, distinct, counted⟩
  · exact tour
  · have inside : path.toFinset ⊆ bound := by
      intro a member
      exact finite a ⟨path, follows, List.mem_toFinset.mp member⟩
    have few := Finset.card_le_card inside
    rw [List.toFinset_card_of_nodup distinct] at few
    omega

end Tour

end Hal9000.Lib
