import Harvesting.Output.Delivery

/-!
# The sink of a source

* `Outlet` — documents in bulk to a server, or kept in memory;
* `Outlet.index`, `flush`, `close` — the sink, over any server `answer`.
-/

namespace Harvesting

/-- Where the documents of a source go. -/
inductive Outlet where
  | shelf (s : Shelf)
  | bulk (d : Delivery)

namespace Outlet

variable {σ : Type} (answer : σ → Call → Reply × σ)

/-- What the sink answers, with the sink and the server after it. -/
abbrev Result (σ : Type) := Except SinkFault Unit × Outlet × σ

def ofShelf (s : σ) (a : SinkAnswer Shelf) : Result σ := (a.1, shelf a.2, s)

def ofDelivery (r : Delivery.Result σ) : Result σ := (r.1, bulk r.2.1, r.2.2)

def index (o : Outlet) (s : σ) (doc : Document) : Result σ :=
  match o with
  | .shelf k => ofShelf s (k.index doc)
  | .bulk d => ofDelivery (d.index answer s doc)

def flush (o : Outlet) (s : σ) : Result σ :=
  match o with
  | .shelf k => ofShelf s k.flush
  | .bulk d => ofDelivery (d.flush answer s)

def close (o : Outlet) (s : σ) : Result σ :=
  match o with
  | .shelf k => ofShelf s k.close
  | .bulk d => ofDelivery (d.close answer s)

end Outlet

end Harvesting
