import Mathlib.Data.List.Induction

/-! Chains of digests: every entry is hashed together with the digest before it. Without a
collision among what is hashed, the last digest determines all entries. -/

namespace HashChain

variable {δ ε : Type} (hash : δ → ε → δ)

structure Link (δ ε : Type) where
  previous : δ
  entry : ε
  digest : δ

/-- The digest that a chain from `g` ends with. -/
def head (g : δ) (xs : List ε) : δ := xs.foldl hash g

/-- What is hashed along the chain. -/
def queries (g : δ) : List ε → List (δ × ε)
  | [] => []
  | x :: xs => (g, x) :: queries (hash g x) xs

/-- Every link names the digest before it, and has its own. -/
def Linked (g : δ) : List (Link δ ε) → Prop
  | [] => True
  | l :: ls => l.previous = g ∧ l.digest = hash g l.entry ∧ Linked (hash g l.entry) ls

def NoCollision (Q : List (δ × ε)) : Prop :=
  ∀ p ∈ Q, ∀ q ∈ Q, hash p.1 p.2 = hash q.1 q.2 → p = q

variable {hash} {g : δ}

@[simp] theorem head_nil : head hash g [] = g := rfl

@[simp] theorem head_cons (x : ε) (xs : List ε) : head hash g (x :: xs) = head hash (hash g x) xs :=
  rfl

theorem head_snoc (xs : List ε) (x : ε) : head hash g (xs ++ [x]) = hash (head hash g xs) x := by
  simp [head]

theorem queries_snoc (xs : List ε) (x : ε) :
    queries hash g (xs ++ [x]) = queries hash g xs ++ [(head hash g xs, x)] := by
  induction xs generalizing g with
  | nil => rfl
  | cons y ys ih =>
    rw [List.cons_append, queries, ih]
    rfl

theorem linked_append {xs ys : List (Link δ ε)} : Linked hash g (xs ++ ys) ↔
    Linked hash g xs ∧ Linked hash (head hash g (xs.map Link.entry)) ys := by
  induction xs generalizing g with
  | nil => simp [Linked]
  | cons x xs ih =>
    simp only [List.cons_append, Linked, List.map_cons, head_cons, ih]
    simp only [and_assoc]

/-- The last link has the digest of the chain. -/
theorem Linked.last {xs : List (Link δ ε)} {l : Link δ ε} (h : Linked hash g (xs ++ [l])) :
    l.digest = head hash g ((xs ++ [l]).map Link.entry) := by
  obtain ⟨-, -, hd, -⟩ := linked_append.1 h
  rw [List.map_append, List.map_singleton, head_snoc]
  exact hd

/-- A chain cannot be cut, extended or changed under its last digest. The first digest is none
of the hashes, so that no entry can be cut in front either. -/
theorem entries_of_head {xs ys : List ε}
    (hno : NoCollision hash (queries hash g xs ++ queries hash g ys))
    (hg : ∀ p ∈ queries hash g xs ++ queries hash g ys, hash p.1 p.2 ≠ g)
    (h : head hash g xs = head hash g ys) : xs = ys := by
  induction xs using List.reverseRecOn generalizing ys with
  | nil =>
    cases ys using List.reverseRecOn with
    | nil => rfl
    | append_singleton ys y =>
      rw [head_snoc] at h
      refine absurd h.symm (hg (head hash g ys, y) ?_)
      simp [queries_snoc]
  | append_singleton xs x ih =>
    cases ys using List.reverseRecOn with
    | nil =>
      rw [head_snoc] at h
      refine absurd h (hg (head hash g xs, x) ?_)
      simp [queries_snoc]
    | append_singleton ys y =>
      rw [head_snoc, head_snoc] at h
      rw [queries_snoc, queries_snoc] at hno hg
      have hxy := hno (head hash g xs, x) (by simp) (head hash g ys, y) (by simp) h
      obtain ⟨hhead, rfl⟩ := Prod.mk.inj hxy
      have hsub : ∀ p ∈ queries hash g xs ++ queries hash g ys,
          p ∈ queries hash g xs ++ [(head hash g xs, x)] ++
            (queries hash g ys ++ [(head hash g ys, x)]) := by
        intro p hp
        rcases List.mem_append.1 hp with hp | hp <;> simp [hp]
      rw [ih (fun p hp q hq => hno p (hsub p hp) q (hsub q hq))
        (fun p hp => hg p (hsub p hp)) hhead]

end HashChain
