import DependencyAtlas.Proofs.Crawl.Invariant
import DependencyAtlas.Proofs.Crawl.Run

namespace DependencyAtlas

namespace Crawler

variable {tree : FileTree} {config : CrawlConfig} {limit : Nat} {pending : List Visit} {v : Visit}
  {visited visited' : List Location} {journal journal' : List CrawlEvent} {place : Location}
  {c : Crawler}

theorem Scheduled.settled (h : Scheduled tree config [] visited v) :
    Settled tree config visited v :=
  h.resolve_left (fun hv => nomatch hv)

variable {p : Path} {before : List Location}

end Crawler

end DependencyAtlas
