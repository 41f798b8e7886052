import Telemetry.Exporter.Notice
import Telemetry.Exporter.Scrape

/-!
# Sinks

A sink takes the collection of every pass. It may fail, with or without having changed, and reports
troubles to the log.

## Main definitions

* `Delivery`: a sink after a call, with the failure and the notices of the call
* `Sink`: what can take collections
-/

namespace Telemetry

/-- **A sink after a call.** -/
structure Delivery (ε : Type) where
  after : ε
  failure : Option Error
  notices : List Notice

namespace Delivery

def done (after : ε) : Delivery ε :=
  ⟨after, none, []⟩

/-- A call whose result is the changed sink; a failure leaves the sink as it was. -/
def ofExcept (before : ε) : Except Error ε → Delivery ε
  | .ok after => .done after
  | .error cause => ⟨before, some cause, []⟩

def map (f : ε → ζ) (d : Delivery ε) : Delivery ζ :=
  ⟨f d.after, d.failure, d.notices⟩

end Delivery

/-- **What can take collections.** A sink has a name, and may serve scrapes. -/
class Sink (ε : Type) where
  name : ε → String
  give : ε → Collection → Delivery ε
  close : ε → Delivery ε
  scraped? : ε → Option ScrapeExporter

end Telemetry
