import VetoMachine.Proofs.Journal

/-!
# Deliveries on all levels

A delivery takes place in a list of entries if it is one of the outermost ones or takes place inside one of them
(`Delivery.TakesPlaceIn`).  What holds of all deliveries of a list, on whatever level, is told by `Throughout`, which
follows the brackets of the list; it holds of every delivery that takes place there (`Throughout.of_takesPlaceIn`).
The surface of a list (`surface`) is what is left when all deliveries in it are taken out.
-/

namespace VetoMachine

/-- A delivery is made in the course of what a list of entries tells, on whatever level. -/
inductive Delivery.TakesPlaceIn (d : Delivery) : List Entry → Prop where
  | outermost {es : List Entry} (hd : d ∈ deliveries es) : TakesPlaceIn d es
  | inside {es : List Entry} {outer : Delivery} (houter : outer ∈ deliveries es)
      (hd : TakesPlaceIn d outer.during) : TakesPlaceIn d es

theorem Delivery.TakesPlaceIn.mono {d : Delivery} {xs ys : List Entry} (hd : d.TakesPlaceIn xs)
    (h : ∀ outer ∈ deliveries xs, outer ∈ deliveries ys) : d.TakesPlaceIn ys := by
  cases hd with
  | outermost hd => exact .outermost (h d hd)
  | inside houter hd => exact .inside (h _ houter) hd

/-- The brackets of a list match, and all deliveries in it have a property. -/
inductive Throughout (Q : Delivery → Prop) : List Entry → Prop where
  | nil : Throughout Q []
  | plain {e : Entry} {rest : List Entry} (he : e.isPlain = true) (h : Throughout Q rest) : Throughout Q (e :: rest)
  | delivery {d : Delivery} {rest : List Entry} (hd : Throughout Q d.during) (hQ : Q d) (h : Throughout Q rest) :
      Throughout Q (d.entries ++ rest)

namespace Throughout

variable {Q R : Delivery → Prop} {xs ys : List Entry}

theorem balanced (h : Throughout Q xs) : Balanced xs := by
  induction h with
  | nil => exact .nil
  | plain he _ ih => exact .plain he ih
  | delivery _ _ _ ihd ih => exact (Delivery.balanced_entries ihd).append ih

theorem append (hx : Throughout Q xs) (hy : Throughout Q ys) : Throughout Q (xs ++ ys) := by
  induction hx with
  | nil => exact hy
  | plain he _ ih => exact .plain he ih
  | delivery hd hQ _ _ ih =>
    rw [List.append_assoc]
    exact .delivery hd hQ ih

theorem of_plain (h : ∀ e ∈ xs, e.isPlain = true) : Throughout Q xs := by
  induction xs with
  | nil => exact .nil
  | cons e xs ih => exact .plain (h e (by simp)) (ih fun x hx => h x (by simp [hx]))

theorem single {d : Delivery} (hd : Throughout Q d.during) (hQ : Q d) : Throughout Q d.entries := by
  have h : Throughout Q (d.entries ++ []) := .delivery hd hQ .nil
  rwa [List.append_nil] at h

theorem flatMap {α : Type} {f : α → List Entry} {as : List α} (h : ∀ a ∈ as, Throughout Q (f a)) :
    Throughout Q (as.flatMap f) := by
  induction as with
  | nil => exact .nil
  | cons a as ih => exact (h a (by simp)).append (ih fun x hx => h x (by simp [hx]))

theorem of_mem_deliveries (h : Throughout Q xs) {d : Delivery} (hd : d ∈ deliveries xs) :
    Q d ∧ Throughout Q d.during := by
  induction h with
  | nil => cases hd
  | plain he _ ih =>
    rw [deliveries_plain he] at hd
    exact ih hd
  | delivery hduring hQ _ _ ih =>
    rw [deliveries_entries hduring.balanced, List.mem_cons] at hd
    rcases hd with rfl | hd
    · exact ⟨hQ, hduring⟩
    · exact ih hd

/-- What holds throughout holds of every delivery, on whatever level. -/
theorem of_takesPlaceIn (h : Throughout Q xs) {d : Delivery} (hd : d.TakesPlaceIn xs) : Q d := by
  induction hd with
  | outermost hd => exact (h.of_mem_deliveries hd).1
  | inside houter _ ih => exact ih (h.of_mem_deliveries houter).2

end Throughout

/-! ### The surface of a list -/

/-- The entries outside all deliveries, with `depth` deliveries under way at the beginning. -/
def surfaceWithin : Nat → List Entry → List Entry
  | _, [] => []
  | depth, .opened _ :: rest => surfaceWithin (depth + 1) rest
  | depth, .closed _ :: rest => surfaceWithin (depth - 1) rest
  | 0, e :: rest => e :: surfaceWithin 0 rest
  | depth + 1, _ :: rest => surfaceWithin (depth + 1) rest

/-- The entries of a list outside all deliveries in it. -/
def surface (es : List Entry) : List Entry := surfaceWithin 0 es

theorem surface_plain {e : Entry} (he : e.isPlain = true) (rest : List Entry) :
    surface (e :: rest) = e :: surface rest := by
  cases e <;> first | rfl | cases he

theorem surface_of_plain {xs : List Entry} (h : ∀ e ∈ xs, e.isPlain = true) : surface xs = xs := by
  induction xs with
  | nil => rfl
  | cons e xs ih => rw [surface_plain (h e (by simp)), ih fun x hx => h x (by simp [hx])]

/-- Under way in a delivery, a balanced stretch is passed over. -/
private theorem surfaceWithin_balanced {xs : List Entry} (h : Balanced xs) (depth : Nat) (rest : List Entry) :
    surfaceWithin (depth + 1) (xs ++ rest) = surfaceWithin (depth + 1) rest := by
  induction h generalizing depth rest with
  | nil => rfl
  | @plain e _ he _ ih =>
    have hskip : ∀ ys, surfaceWithin (depth + 1) (e :: ys) = surfaceWithin (depth + 1) ys := by
      intro ys
      cases e <;> first | rfl | cases he
    rw [List.cons_append, hskip, ih]
  | @delivery n during tail _ _ ihd ih =>
    calc surfaceWithin (depth + 1) ((.opened n :: (during ++ .closed n :: tail)) ++ rest)
        = surfaceWithin (depth + 1 + 1) (during ++ (.closed n :: (tail ++ rest))) := by simp [surfaceWithin]
      _ = surfaceWithin (depth + 1) (tail ++ rest) := by rw [ihd, surfaceWithin]; rfl
      _ = surfaceWithin (depth + 1) rest := ih depth rest

theorem surface_entries {d : Delivery} (hd : Balanced d.during) (rest : List Entry) :
    surface (d.entries ++ rest) = surface rest := by
  have hentries : d.entries ++ rest = .opened d.note :: (d.during ++ .closed d.note :: rest) := by
    simp [Delivery.entries]
  rw [hentries, surface, surfaceWithin, surfaceWithin_balanced hd, surfaceWithin]
  rfl

theorem surface_append {xs : List Entry} (hx : Balanced xs) (ys : List Entry) :
    surface (xs ++ ys) = surface xs ++ surface ys := by
  induction hx with
  | nil => rfl
  | plain he _ ih => rw [List.cons_append, surface_plain he, surface_plain he, ih, List.cons_append]
  | @delivery n during rest hd _ _ ih =>
    have hentries : .opened n :: (during ++ .closed n :: rest) = (Delivery.mk n during).entries ++ rest := by
      simp [Delivery.entries]
    rw [hentries, List.append_assoc, surface_entries hd, surface_entries hd, ih]

theorem surface_flatMap {α : Type} {f : α → List Entry} {as : List α} (h : ∀ a ∈ as, Balanced (f a)) :
    surface (as.flatMap f) = as.flatMap fun a => surface (f a) := by
  induction as with
  | nil => rfl
  | cons a as ih =>
    rw [List.flatMap_cons, surface_append (h a (by simp)), ih fun x hx => h x (by simp [hx]), List.flatMap_cons]

end VetoMachine
