import Dlmserve.Library.Transition
import Dlmserve.Absorb
import Dlmserve.Commitment
import Dlmserve.TransferSchedule
import Dlmserve.LeapEffect
import Dlmserve.ParamIsolation
import Dlmserve.Answers
import Dlmserve.Aging
import Dlmserve.Transparency
import Dlmserve.Reuse
import Dlmserve.PromptFrame
import Dlmserve.Containment
import Dlmserve.Validation
import Dlmserve.Drain
import Dlmserve.InFlight
import Dlmserve.Backpressure
import Dlmserve.Quiescence
import Dlmserve.AnswersAlone
import Dlmserve.ClientIsolation
import Dlmserve.Clients
import Dlmserve.Metered
import Dlmserve.Streaming
import Dlmserve.Lifespan
import Dlmserve.GenerateAlone
import Dlmserve.ServedReference
import Dlmserve.Refinement
import Dlmserve.Lockstep
import Dlmserve.Outage
import Dlmserve.FirstCome
