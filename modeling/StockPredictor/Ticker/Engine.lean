/-
`NasdaqStockEngine`: the two listing files next to the program, the static directory of tickers,
and the load that every construction runs. A state records what the server has delivered so far
besides, which no code reads.
-/
import StockPredictor.Base.Program
import StockPredictor.Ticker.Listing

namespace StockPredictor.Ticker

open Base

/-! ## State -/

/-- The two listings, `nasdaqlisted.txt` and `otherlisted.txt`. -/
inductive Listing
  | nasdaq
  | others
deriving DecidableEq, Repr

/-- A cached listing file. Times are in ticks. -/
structure CachedFile where
  text : Text
  created : ℤ
deriving DecidableEq

/-- `_stockTickers` and the two cached files. -/
@[ext] structure Store where
  tickers : Option Directory
  nasdaq : Option CachedFile
  others : Option CachedFile
deriving DecidableEq

def Store.file (st : Store) : Listing → Option CachedFile
  | .nasdaq => st.nasdaq
  | .others => st.others

def Store.setFile (st : Store) (f : Listing) (c : Option CachedFile) : Store :=
  match f with
  | .nasdaq => { st with nasdaq := c }
  | .others => { st with others := c }

def Store.setTickers (st : Store) (t : Option Directory) : Store := { st with tickers := t }

/-- A text the server delivered, and when. -/
structure Delivery where
  listing : Listing
  time : ℤ
  text : Text
deriving DecidableEq

structure State where
  store : Store
  served : List Delivery
deriving DecidableEq

/-! ## Environment -/

/-- The outcome of a download. -/
inductive Download
  | throws
  | nullStream
  | text (t : Text)
deriving DecidableEq

/-- What a construction meets: the time, the outcome of a download of each listing, and whether
writing each file succeeds. -/
structure Environment where
  now : ℤ
  download : Listing → Download
  saves : Listing → Bool

/-- One day in ticks. -/
def day : ℤ := 864000000000

abbrev EngineM := Prog Exn State

def modifyStore (f : Store → Store) : EngineM PUnit := modify fun s => { s with store := f s.store }

/-! ## The load -/

/-- `NasdaqStockEngine.GetTickers`. -/
def getTickers (env : Environment) (f : Listing) : EngineM (Option Text) :=
  match env.download f with
  | .throws => throw .web
  | .nullStream => pure none
  | .text t => do
    modify fun s => { s with served := s.served ++ [⟨f, env.now, t⟩] }
    pure (some t)

/-- `File.GetCreationTime(fullPath) > DateTime.Now.AddDays(-1)`. -/
def isFresh (now : ℤ) (c : CachedFile) : Bool := decide (c.created > now - day)

/-- The file of a listing, if it exists and is fresh. -/
def Store.fresh (st : Store) (now : ℤ) (f : Listing) : Option CachedFile := (st.file f).filter (isFresh now)

/-- `NasdaqStockEngine.ProcessFiles`: the text of a fresh file, else the file is deleted and the
listing downloaded. -/
def processFiles (env : Environment) (f : Listing) : EngineM (Option Text) := do
  let s ← get
  match s.store.fresh env.now f with
  | some c => pure (some c.text)
  | none =>
    modifyStore (·.setFile f none)
    getTickers env f

/-- The creation time of a file after a write at `now` over `old`. -/
def creationTime (now : ℤ) : Option CachedFile → ℤ
  | some c => c.created
  | none => now

/-- `File.WriteAllText`: overwriting keeps the creation time, a null string writes no character. -/
def Store.writeAllText (st : Store) (now : ℤ) (f : Listing) (data : Option Text) : Store :=
  st.setFile f (some ⟨data.getD [], creationTime now (st.file f)⟩)

/-- `NasdaqStockEngine.TrySaveFile`. -/
def trySaveFile (env : Environment) (f : Listing) (data : Option Text) : EngineM Bool :=
  if env.saves f then do
    modifyStore (·.writeAllText env.now f data)
    pure true
  else pure false

/-- The loop body of `Init` on an entry of the second listing. The filter runs when the entry is
reached, against the directory as extended so far. -/
def addOther (item : Text × Text) : EngineM PUnit := do
  let s ← get
  match s.store.tickers with
  | none => throw .nullReference
  | some tickers =>
    if tickers.containsKey item.1 then pure ⟨⟩
    else
      match tickers.add item.1 item.2 with
      | none => throw .duplicateKey
      | some tickers => modifyStore (·.setTickers (some tickers))

/-- The loop of `Init` over the second listing. -/
def addOthers : List (Text × Text) → EngineM PUnit
  | [] => pure ⟨⟩
  | item :: items => do
    addOther item
    addOthers items

/-- The part of `Init` after the listings are read and saved. -/
def parseListings (nasdaqListing otherListing : Option Text) : EngineM PUnit := do
  let tickers ← liftM (processData nasdaqListing)
  modifyStore (·.setTickers (some tickers))
  let otherListed ← liftM (processData otherListing)
  addOthers otherListed.entries

/-- `NasdaqStockEngine.Init`. -/
def init (env : Environment) : EngineM PUnit := do
  let s ← get
  if s.store.tickers.isSome then pure ⟨⟩
  else
    modifyStore (·.setTickers (some .empty))
    let nasdaqListing ← processFiles env .nasdaq
    let otherListing ← processFiles env .others
    let _ ← trySaveFile env .nasdaq nasdaqListing
    let _ ← trySaveFile env .others otherListing
    parseListings nasdaqListing otherListing

/-- The constructor of `NasdaqStockEngine`. -/
def construct (env : Environment) : EngineM PUnit := do
  modifyStore (·.setTickers none)
  init env

/-! ## Queries -/

/-- `NasdaqStockEngine.GetStockTickers`. -/
def getStockTickers (st : Store) : Option Directory := st.tickers

/-- A key or a name contains the search text, both in lower case. -/
def isMatch (toLower : Text → Text) (search : Text) (item : Text × Text) : Bool :=
  decide (toLower search <:+: toLower item.1) || decide (toLower search <:+: toLower item.2)

/-- `key-name`. -/
def showEntry (item : Text × Text) : Text := item.1 ++ "-" ++ item.2

/-- `NasdaqStockEngine.LookUpStock`; `toLower` is the culture's lower case. -/
def lookUpStock (toLower : Text → Text) (st : Store) (search : Text) : Option (List Text) :=
  match st.tickers with
  | none => none
  | some tickers =>
    let hits := tickers.entries.filter (isMatch toLower search)
    if hits = [] then none else some (hits.map showEntry)

/-- `NasdaqStockEngine.IsValidateSymbol`. -/
def isValidateSymbol (st : Store) (symbol : Text) : ℤ :=
  match st.tickers with
  | none => -1
  | some tickers => if tickers.containsKey symbol then 1 else 0

end StockPredictor.Ticker
