import Nestra.EarlyStopping
import Nestra.BestScore
import Nestra.StoppingModes
import Nestra.StateDict
import Nestra.PyString
import Nestra.Trainer
import Nestra.Loaders
import Nestra.Pipeline
import Nestra.Explanation
import Nestra.Preprocessing
import Nestra.ExplainMain
import Nestra.Divergence
import Nestra.Scheduler
import Nestra.TrainingData
