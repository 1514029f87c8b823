import Adventure.Panel

/-!
Forks: players who choose where to go on are put into groups, and the groups are sent off one after
another.

A group's place in the order is the order of the option less the group's average initiative, which
is rounded to the nearest whole number and to the even one of two, and less one for every two
members beyond the first. Quick and large groups go first; groups with the same place keep the order
in which they were formed.
-/

namespace Adventure.Play

/-- Players who go on to the same storyboard, given by their places on the roster. -/
structure Group where
  players : List Nat
  targetUri : String
  order : Score
deriving DecidableEq, Repr

/-- A quotient rounded to the nearest whole number, and halfway to the even one. -/
def roundHalfEven (n : Int) (d : Nat) : Int :=
  let q := n / d
  let twice := 2 * (n % d)
  if twice < d then q
  else if d < twice then q + 1
  else if q % 2 = 0 then q else q + 1

namespace Group

/-- The members who are on the roster. -/
def members (roster : List Character) (g : Group) : List Character :=
  g.players.filterMap fun p => roster[p]?

/-- The group's place in the order. Players who are not on the roster do not count, and without any
member the order of the option stands.

The average is the exact quotient, and the number of members any natural number. With a division in
double precision and members counted in 32 bits the place would be the same for each group of fewer
than 2 ^ 22 members: the sum of their initiatives is a double, and a quotient that does not lie
halfway between two whole numbers lies farther from there than such a division rounds. -/
def finalOrder (roster : List Character) (g : Group) : Score :=
  let initiatives := (g.members roster).map Character.initiative
  let size := initiatives.length
  if size = 0 then g.order
  else
    let average := Score.clamp (roundHalfEven (initiatives.foldr (· + ·) 0) size)
    let bonus := Score.clamp (((size - 1) / 2 : Nat) : Int)
    g.order - (average + bonus)

/-- The group with further players, each only once. -/
def join (g : Group) (players : List Nat) : Group :=
  { g with
    players := players.foldl (fun ps p => if ps.contains p then ps else ps ++ [p]) g.players }

end Group

/-- A choice that players made. Those who merge go with others who chose the same target. -/
structure Pick where
  players : List Nat
  targetUri : String
  order : Score
  merge : Bool
deriving DecidableEq, Repr

namespace Pick

/-- The choice of one player on a decision panel. -/
def ofDecision (player : Nat) (o : DecisionOption) (merge : Bool) : Pick :=
  ⟨[player], o.targetUri, o.order, merge⟩

/-- The choice of a group on a branch panel. -/
def ofBranch (players : List Nat) (o : BranchOption) (merge : Bool) : Pick :=
  ⟨players, o.targetUri, o.order, merge⟩

/-- The group that a choice forms. -/
def group (p : Pick) : Group := ⟨p.players, p.targetUri, p.order⟩

end Pick

/-- The groups formed so far, each with whether others may join it. -/
structure Fork where
  groups : List (Group × Bool) := []
deriving DecidableEq, Repr

namespace Fork

instance : Inhabited Fork := ⟨{}⟩

/-- Groups after a choice of players who merge: the first group for the target that may be joined
takes them in, or else they form one. -/
def mergeInto (p : Pick) : List (Group × Bool) → List (Group × Bool)
  | [] => [(p.group, true)]
  | (g, joinable) :: rest =>
    if joinable && g.targetUri = p.targetUri then (g.join p.players, joinable) :: rest
    else (g, joinable) :: mergeInto p rest

/-- The fork after a choice. -/
def pick (f : Fork) (p : Pick) : Fork :=
  if p.merge then ⟨mergeInto p f.groups⟩ else ⟨f.groups ++ [(p.group, false)]⟩

/-- How many groups there are. -/
def size (f : Fork) : Nat := f.groups.length

/-- Whether there are no groups. -/
def isEmpty (f : Fork) : Bool := f.groups.isEmpty

/-- The groups in the order in which they go on. Afterwards the fork is empty again. -/
def sendOff (f : Fork) (roster : List Character) : List Group × Fork :=
  ((f.groups.map Prod.fst).mergeSort fun a b =>
    decide (a.finalOrder roster ≤ b.finalOrder roster), {})

end Fork

end Adventure.Play
