/-!
Named things in the order in which their names first appeared.

`put` sets one and leaves the others alone, `erase` takes one out. After either, `lookup` finds
what was put, nothing under an erased name, and under any other name what it found before.
-/

namespace StellarWallet.Fields

variable {α : Type}

/-- What stands under a name. -/
def lookup (key : String) : List (String × α) → Option α
  | [] => none
  | (k, v) :: r => if k = key then some v else lookup key r

/-- Sets what stands under a name: in its place if it is there, else at the end. -/
def put (key : String) (v : α) : List (String × α) → List (String × α)
  | [] => [(key, v)]
  | (k, w) :: r => if k = key then (k, v) :: r else (k, w) :: put key v r

/-- Takes a name out. -/
def erase (key : String) (fields : List (String × α)) : List (String × α) :=
  fields.filter fun f => f.1 ≠ key

/-- The fields of `new` over those of `old`. -/
def merge (old new : List (String × α)) : List (String × α) :=
  new.foldl (fun fields f => put f.1 f.2 fields) old

theorem lookup_put_self (key : String) (v : α) (fields : List (String × α)) :
    lookup key (put key v fields) = some v := by
  induction fields with
  | nil => simp [put, lookup]
  | cons f r ih => by_cases h : f.1 = key <;> simp [put, lookup, h, ih]

theorem lookup_put_of_ne {key other : String} (h : other ≠ key) (v : α)
    (fields : List (String × α)) : lookup other (put key v fields) = lookup other fields := by
  induction fields with
  | nil => simp [put, lookup, Ne.symm h]
  | cons f r ih => grind [put, lookup]

theorem lookup_erase_self (key : String) (fields : List (String × α)) :
    lookup key (erase key fields) = none := by
  induction fields with
  | nil => rfl
  | cons f r ih =>
    by_cases h : f.1 = key
    · simpa [erase, h] using ih
    · simpa [erase, lookup, h] using ih

theorem lookup_erase_of_ne {key other : String} (h : other ≠ key) (fields : List (String × α)) :
    lookup other (erase key fields) = lookup other fields := by
  induction fields with
  | nil => rfl
  | cons f r ih =>
    by_cases hk : f.1 = key
    · have : ¬ f.1 = other := fun e => h (e ▸ hk)
      simpa [erase, lookup, hk, Ne.symm h] using ih
    · by_cases ho : f.1 = other <;> simp_all [erase, lookup]

end StellarWallet.Fields
